import ObjectNavigation.Proofs.Engine.Constancy

/-!
Evaluation without constants. `Tree.uncached` evaluates the nodes of a tree as `Tree.handle` does,
but every get runs the body: no node is asked whether it is constant, and no value is kept. A
constant node has the outcome `Tree.constantOutcome` in this evaluation (`Tree.yields_uncached`).
-/

namespace ObjectNavigation

/-- No node of the tree has an accessor. -/
def Env.Plain (env : Env) (home : TreeId) : Prop :=
  ∀ id, env.accessor home id = none

namespace Engine

theorem substitute?_eq_none {env : Env} {home : TreeId} (plain : env.Plain home) (id : NodeId)
    (body : Body) : substitute? env home id body = none := by
  cases body <;> first | exact plain id | rfl

theorem substitute?_mem {env : Env} {home : TreeId} {id : NodeId} {body : Body}
    {accessor : Accessor} (h : substitute? env home id body = some accessor) :
    accessor ∈ env.accessor home id := by
  cases body <;> first | exact h | cases h

def uncached (env : Env) (home : TreeId) (id : NodeId) (body : Body) (seat : Seat)
    (child : Nat → Option Handle) : Handle where
  get source :=
    traced id body.kind source false some <| visiting id source <|
      match substitute? env home id body with
      | some accessor => (accessor.read source).run env.enter env.gateway
      | none => (body.read seat source).run (reach body.kind child) env.gateway
  set target value :=
    traced id body.kind target true (fun _ => none) <| visiting id target <|
      match substitute? env home id body with
      | some accessor => (accessor.assign target value).run env.enter env.gateway
      | none => (body.assign seat target value).run (reach body.kind child) env.gateway
  ask question := (body.ask seat question).run (reach body.kind child) env.gateway

end Engine

namespace Tree

mutual

/-- The root of `tree`, as the node `id` of the tree named `home`, evaluated without constants. -/
def uncached (env : Env) (home : TreeId) (id : NodeId) : Tree → Handle
  | .node body slots =>
    Engine.uncached env home id body (seat (.node body slots))
      (uncachedChild env home (id + 1) slots)

def uncachedChild (env : Env) (home : TreeId) (next : NodeId) :
    List (Option Tree) → Nat → Option Handle
  | [], _ => none
  | none :: _, 0 => none
  | some first :: _, 0 => some (first.uncached env home next)
  | none :: rest, index + 1 => uncachedChild env home next rest index
  | some first :: rest, index + 1 => uncachedChild env home (next + first.size) rest index

end

def uncachedAt (env : Env) (home : TreeId) (tree : Tree) (id : NodeId) : Handle :=
  match tree.lookUp id with
  | .ok place => place.subtree.uncached env home id
  | .error misuse => .stray misuse

theorem uncachedChild_eq (env : Env) (home : TreeId) (next : NodeId) (slots : List (Option Tree))
    (index : Nat) :
    uncachedChild env home next slots index =
      (child? next slots index).map fun entry => entry.2.uncached env home entry.1 :=
  pick_eq (uncachedChild env home) (Option.map fun entry => entry.2.uncached env home entry.1)
    (fun _ _ => uncachedChild.eq_1 ..) (fun _ _ => rfl) (fun _ _ _ => rfl) (fun _ _ _ => rfl)
    (fun _ _ _ _ => rfl) next slots index

variable {env : Env} {home : TreeId} {id : NodeId} {body : Body} {slots : List (Option Tree)}

theorem uncached_get (plain : env.Plain home) (source : Value) :
    ((Tree.node body slots).uncached env home id).get source =
      Engine.traced id body.kind source false some (Engine.visiting id source
        ((body.read (seat (.node body slots)) source).run
          (Engine.reach body.kind (uncachedChild env home (id + 1) slots)) env.gateway)) := by
  rw [uncached, Engine.uncached]
  simp only [Engine.substitute?_eq_none plain]

theorem uncached_set (plain : env.Plain home) (target value : Value) :
    ((Tree.node body slots).uncached env home id).set target value =
      Engine.traced id body.kind target true (fun _ => none) (Engine.visiting id target
        ((body.assign (seat (.node body slots)) target value).run
          (Engine.reach body.kind (uncachedChild env home (id + 1) slots)) env.gateway)) := by
  rw [uncached, Engine.uncached]
  simp only [Engine.substitute?_eq_none plain]

theorem entrance_eq_handle (plain : env.Plain home) (tree : Tree) :
    tree.entrance env home = tree.handle env home 0 := by
  rw [entrance, plain 0]

theorem yields_uncached {tree : Tree} (reference : tree.isReference = true)
    (constant : tree.isConstant = true) (plain : env.Plain home) (id : NodeId) (source : Value) :
    ((tree.uncached env home id).get source).Yields (fun _ => True) Value.Same
      tree.constantOutcome := by
  induction id, tree using child_induction generalizing source with
  | node id body slots ih =>
    rw [uncached_get plain]
    apply Eval.Yields.traced
    apply Eval.Yields.visiting
    apply yields_read reference constant
    intro hslots index hindex source
    rw [isReference, Bool.and_eq_true] at reference
    obtain ⟨entry, hentry, hconstant⟩ := isConstant_child (id + 1) hslots hindex
    rw [slotOutcome_of_child hentry, Engine.reach, uncachedChild_eq, Option.mem_def.1 hentry]
    exact ih index entry hentry (isReference_child reference.2 hentry) hconstant source

end Tree
end ObjectNavigation
