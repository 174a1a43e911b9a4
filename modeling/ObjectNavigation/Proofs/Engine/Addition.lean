import ObjectNavigation.Proofs.Engine.Cells
import ObjectNavigation.Proofs.Value.Addition

/-!
Gets of sums. A get either finds a value that an earlier one kept, or comes to the body of the node
and has its outcome, whether that is kept then or not (`Tree.get_of_begins`). The body of a sum
takes the values of all operands, of whatever types, and comes to what `Value.Sums` says about them
(`Workspace.get_sum`).
-/

namespace ObjectNavigation

/-! ### Operands -/

theorem Script.run_bind_of_eq {C α β : Type} {reach : C → Handle} {gateway : Option Registry}
    {script : Script C α} {next : α → Script C β} {value : α} {world middle : World}
    (h : script.run reach gateway world = (.ok (.ok value), middle)) :
    (script >>= next).run reach gateway world = (next value).run reach gateway middle := by
  rw [bind_eq_andThen, run_andThen, Eval.andThen, h]
  rfl

/-- One after another the computations give these values. -/
inductive Eval.Gives : List (Eval Value) → World → List Value → World → Prop where
  | nil (world : World) : Gives [] world [] world
  | cons {act : Eval Value} {acts : List (Eval Value)} {world middle after : World} {value : Value}
    {values : List Value} (first : act world = (.ok (.ok value), middle))
    (rest : Gives acts middle values after) : Gives (act :: acts) world (value :: values) after

namespace Eval.Gives
variable {acts : List (Eval Value)} {world after : World} {values : List Value}

theorem length_eq (h : Gives acts world values after) : values.length = acts.length := by
  induction h with
  | nil => rfl
  | cons _ _ ih => exact congrArg Nat.succ ih

theorem run_mapM {reach : Nat → Handle} {gateway : Option Registry} {source : Value}
    {indices : List Nat}
    (h : Gives (indices.map fun index => (reach index).get source) world values after) :
    (indices.mapM (Script.getValue · source)).run reach gateway world =
      (.ok (.ok values), after) := by
  induction indices generalizing world values with
  | nil =>
    cases h
    rfl
  | cons index rest ih =>
    cases h with
    | cons hfirst hrest =>
      have hget := congrFun (Script.run_getValue reach gateway index source) world
      rw [List.mapM_cons, Script.run_bind_of_eq (hget.trans hfirst),
        Script.run_bind_of_eq (ih hrest)]
      rfl

end Eval.Gives

/-! ### Gets that run what they come to -/

namespace Engine
variable {home : TreeId} {id : NodeId} {constant : Eval Bool} {act : Eval Value}
  {world begun after : World}

/-- A get by way of the constant of the node, from the first state, comes to run its computation in
the second: the node was asked before and no value is kept, or it is asked now and answers. -/
inductive Begins (home : TreeId) (id : NodeId) (constant : Eval Bool) (world : World) :
    World → Prop where
  | again (h : world.constants.cell home id = ⟨true, none⟩) : Begins home id constant world world
  | first {answer : Bool} {begun : World} (blank : world.constants.cell home id = {})
    (asked : constant { world with constants := world.constants.check home id } =
      (.ok (.ok answer), begun)) : Begins home id constant world begun

theorem outside_keeping (home : TreeId) (id : NodeId) (act : Eval Value) (world : World) :
    (keeping home id act world).2.outside = (act world).2.outside := by
  rw [keeping, Eval.andThen]
  rcases act world with ⟨misuse | error | value, after⟩ <;> rfl

/-- A value that is kept by the get is the one that it came to. -/
theorem cached_of_begins {asking acting : World → List Get}
    (hconstant : constant.Tells home id asking) (hact : act.Tells home id acting)
    (begins : Begins home id constant world begun) {outcome : Except EvalError Value}
    (hran : act begun = (.ok outcome, after)) :
    (cached home id constant act world).1 = .ok outcome ∧
      (cached home id constant act world).2.outside = after.outside := by
  cases begins with
  | again h =>
    rw [cached, h, if_pos rfl, kept, h]
    dsimp only
    rw [hran]
    exact ⟨rfl, rfl⟩
  | @first answer _ blank asked =>
    have hchecked : (world.constants.check home id).cell home id = ⟨true, none⟩ := by
      rw [Constants.check, Constants.cell_put, if_pos ⟨rfl, rfl⟩, blank]
    -- Neither the answer nor the body leaves a value, whatever gets of the node they lead to.
    have hasked := hconstant { world with constants := world.constants.check home id }
      fun hnot => by rw [hchecked] at hnot; cases hnot
    rw [hchecked, asked] at hasked
    have hbegun := (hasked.repeats rfl).1
    rw [cached, blank, if_neg (by simp), Eval.andThen, asked]
    cases answer with
    | false =>
      dsimp only
      rw [kept, hbegun]
      dsimp only
      rw [hran]
      exact ⟨rfl, rfl⟩
    | true =>
      have hended := hact begun fun hnot => by rw [hbegun] at hnot; cases hnot
      rw [hbegun] at hended
      have hkept := keeping_of_asked act begun (hended.repeats rfl).1
      dsimp only
      rw [hkept.1, outside_keeping, hran]
      exact ⟨rfl, rfl⟩

end Engine

/-! ### Sums -/

namespace Tree
variable {env : Env} {home : TreeId} {id : NodeId} {body : Body} {slots : List (Option Tree)}
  {source : Value} {world begun after : World} {enter : Entry → Gets}

def Begins (env : Env) (home : TreeId) (id : NodeId) (expression : Tree) (source : Value)
    (world begun : World) : Prop :=
  Engine.Begins home id ((expression.handle env home id).ask .constant)
    ((Watched.entered id expression.kind source false world).visit id source) begun

theorem tells_reach (henter : ∀ entry, (env.enter entry).Tells home id (enter entry))
    (next : NodeId) (kind : Kind) (slots : List (Option Tree)) (index : Nat) :
    (Engine.reach kind (child env home next slots) index).Tells home id
      (childGets env enter home next slots index) := by
  rw [Engine.reach, child_eq, childGets_eq]
  cases child? next slots index with
  | none => exact .absent _
  | some entry => exact tells_handle henter home entry.1 entry.2

theorem get_of_begins (henter : ∀ entry, (env.enter entry).Tells home id (enter entry))
    (hown : Engine.substitute? env home id body = none)
    (begins : (node body slots).Begins env home id source world begun)
    {outcome : Except EvalError Value}
    (hread : (body.read (seat (.node body slots)) source).run
      (Engine.reach body.kind (child env home (id + 1) slots)) env.gateway begun =
        (.ok outcome, after)) :
    ∃ final, ((node body slots).handle env home id).get source world = (.ok outcome, final) ∧
      final.outside = after.outside := by
  have hreach := tells_reach henter (id + 1) body.kind slots
  have hcached := Engine.cached_of_begins (.run hreach env.gateway (body.ask _ .constant))
    (.run hreach env.gateway (body.read _ source)) begins hread
  rw [handle]
  simp only [Engine.node, hown]
  obtain ⟨trace, htraced⟩ := Watched.traced_eq_entered id body.kind source false some
    (Engine.visiting id source (Engine.cached home id _ _)) world
  exact ⟨_, htraced.trans (Prod.ext hcached.1 rfl), hcached.2⟩

def slotGets (env : Env) (home : TreeId) (id : NodeId) (body : Body) (slots : List (Option Tree))
    (source : Value) : List (Eval Value) :=
  (List.range slots.length).map fun index =>
    (Engine.reach body.kind (child env home (id + 1) slots) index).get source

/-- Once its operands have been got, all that a sum does is to add the values. -/
theorem run_add {value : Value} {values : List Value}
    (gives : Eval.Gives (slotGets env home id (.arithmetic .add) slots source) begun
      (value :: values) after) :
    ((Body.arithmetic .add).read (seat (.node (.arithmetic .add) slots)) source).run
        (Engine.reach (Body.arithmetic .add).kind (child env home (id + 1) slots)) env.gateway
        begun =
      (.ok (Body.fold .add after.heap value values), after) := by
  have hoperands : (Body.operands (seat (.node (.arithmetic .add) slots)) source).run
      (Engine.reach (Body.arithmetic .add).kind (child env home (id + 1) slots)) env.gateway begun =
        (.ok (.ok (value :: values)), after) := gives.run_mapM
  rw [Body.read, Script.run_bind_of_eq hoperands]
  rfl

end Tree

namespace Workspace

def envAt (workspace : Workspace) (gateway : Option Registry) (depth : Nat) : Env where
  accessor := workspace.accessor?
  gateway
  enter := workspace.enter gateway depth

/-- Whatever the types of the operands are, a sum comes to what they come to by the place of the
first text among them. -/
theorem get_sum (workspace : Workspace) (gateway : Option Registry) (depth : Nat) {home : TreeId}
    {id : NodeId} {slots : List (Option Tree)} {source : Value} {world begun after : World}
    {values : List Value} (hslots : slots ≠ [])
    (begins : (Tree.node (.arithmetic .add) slots).Begins (workspace.envAt gateway depth) home id
      source world begun)
    (gives : Eval.Gives (Tree.slotGets (workspace.envAt gateway depth) home id (.arithmetic .add)
      slots source) begun values after) :
    ∃ outcome final, ((Tree.node (.arithmetic .add) slots).handle (workspace.envAt gateway depth)
        home id).get source world = (.ok outcome, final) ∧
      final.outside = after.outside ∧
      ∀ found, Value.Sums after.heap values found ↔ found = outcome := by
  have henter : ∀ entry, ((workspace.envAt gateway depth).enter entry).Tells home id
      (workspace.gets gateway depth entry) :=
    workspace.tells_enter gateway home id depth
  have hlength := gives.length_eq
  rw [Tree.slotGets, List.length_map, List.length_range] at hlength
  cases values with
  | nil => exact absurd (List.length_eq_zero_iff.1 hlength.symm) hslots
  | cons value values =>
    obtain ⟨final, hget, houtside⟩ := Tree.get_of_begins henter rfl begins (Tree.run_add gives)
    exact ⟨_, final, hget, houtside, fun found => Value.sums_iff.trans eq_comm⟩

def mixedSlots : List (Option Tree) := [
  some (.node (.const (.int 1)) []), some (.node (.property "x") []),
  some (.node (.const (.string "m")) []),
  some (.node (.const (.bool true)) [])]

theorem get_sum_mixed :
    let tree : Tree := .node (.arithmetic .add) mixedSlots
    let workspace : Workspace :=
      { trees := #[tree], outside := { heap := { objects := #[⟨"T", [("x", .int 2)]⟩] } } }
    let env := workspace.envAt none delegationDepth
    let world := workspace.world {}
    ∃ begun after, mixedSlots ≠ [] ∧ tree.Begins env 0 0 (.object 0) world begun ∧
      Eval.Gives (Tree.slotGets env 0 0 (.arithmetic .add) mixedSlots (.object 0)) begun
        [.int 1, .int 2, .string "m", .bool true] after ∧
      ∃ final, (tree.handle env 0 0).get (.object 0) world =
        (.ok (.ok (.string "3mtrue")), final) := by
  intro tree workspace env world
  have hgiven : ∃ begun, tree.Begins env 0 0 (.object 0) world begun ∧ ∃ after,
      Eval.Gives (Tree.slotGets env 0 0 (.arithmetic .add) mixedSlots (.object 0)) begun
        [.int 1, .int 2, .string "m", .bool true] after :=
    ⟨_, .first rfl rfl, _, .cons rfl (.cons rfl (.cons rfl (.cons rfl (.nil _))))⟩
  obtain ⟨begun, begins, after, gives⟩ := hgiven
  obtain ⟨outcome, final, hget, _, hsums⟩ :=
    workspace.get_sum none delegationDepth (List.cons_ne_nil _ _) begins gives
  have hsum : Value.Sums after.heap [.int 1, .int 2, .string "m", .bool true]
      (.ok (.string "3mtrue")) :=
    @Value.Sums.text after.heap [.int 1, .int 2] _ _ _ (by decide)
      (.numbers (.step (.ints rfl) (.total (.int 3))))
  rw [← (hsums _).1 hsum] at hget
  exact ⟨begun, after, List.cons_ne_nil _ _, begins, gives, final, hget⟩

end Workspace
end ObjectNavigation
