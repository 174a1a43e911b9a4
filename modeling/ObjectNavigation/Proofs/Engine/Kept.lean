import ObjectNavigation.Proofs.Engine.Uncached

/-!
The values kept for the nodes of a tree. They are correct if only constant expressions have one, and
that is, up to the identity of lists, the outcome of the expression (`Constants.Correct`). A get of
a constant node then has that outcome, whether the value is kept, made and kept, or made again
(`Tree.yields_get`), and no get, set or question makes correct values incorrect
(`Tree.handle_preserves`), unless the accessors that nodes use instead of their bodies do.
-/

namespace ObjectNavigation

namespace Constants

def Holds (tree : Tree) (home : TreeId) (good : Tree → Value → Prop) (constants : Constants) :
    Prop :=
  ∀ id sub value, tree.Sub id sub → (constants.cell home id).value = some value → good sub value

namespace Holds
variable {constants after : Constants} {tree sub : Tree} {home : TreeId} {id : NodeId}
  {good : Tree → Value → Prop}

theorem of_blank (h : ∀ id, (constants.cell home id).value = none) :
    constants.Holds tree home good := by
  intro id sub value _ hvalue
  rw [h id] at hvalue
  cases hvalue

theorem of_value_eq (h : constants.Holds tree home good)
    (heq : ∀ id, (after.cell home id).value = (constants.cell home id).value) :
    after.Holds tree home good :=
  fun id sub value hsub hvalue => h id sub value hsub (heq id ▸ hvalue)

theorem check (h : constants.Holds tree home good) (id : NodeId) :
    (constants.check home id).Holds tree home good := by
  refine h.of_value_eq fun other => ?_
  rw [Constants.check, cell_put]
  split
  next heq => rw [heq.2]
  next => rfl

theorem keep (h : constants.Holds tree home good) (hsub : tree.Sub id sub) {value : Value}
    (hvalue : good sub value) : (constants.keep home id value).Holds tree home good := by
  rw [Constants.keep]
  split
  next => exact h
  next =>
    intro other place held hplace hheld
    rw [cell_put] at hheld
    split at hheld
    next heq =>
      cases hheld
      cases heq.2
      cases hsub.unique hplace
      exact hvalue
    next => exact h other place held hplace hheld

theorem value_eq_none (h : constants.Holds tree home good) (hsub : tree.Sub id sub)
    (hnot : ∀ value, ¬ good sub value) : (constants.cell home id).value = none := by
  cases hvalue : (constants.cell home id).value with
  | none => rfl
  | some value => exact absurd (h id sub value hsub hvalue) (hnot value)

end Holds

/-- Of the nodes of the tree, only constant ones have a value, and it is the right one. -/
def Correct (tree : Tree) (home : TreeId) (constants : Constants) : Prop :=
  ∀ id sub value, tree.Sub id sub → (constants.cell home id).value = some value →
    sub.isConstant = true ∧ Alike Value.Same (.ok value) sub.constantOutcome

namespace Correct
variable {constants after : Constants} {tree sub : Tree} {home : TreeId} {id : NodeId}

theorem of_blank (h : ∀ id, (constants.cell home id).value = none) :
    constants.Correct tree home :=
  Holds.of_blank h

theorem of_value_eq (h : constants.Correct tree home)
    (heq : ∀ id, (after.cell home id).value = (constants.cell home id).value) :
    after.Correct tree home :=
  Holds.of_value_eq h heq

theorem check (h : constants.Correct tree home) (id : NodeId) :
    (constants.check home id).Correct tree home :=
  Holds.check h id

theorem keep (h : constants.Correct tree home) (hsub : tree.Sub id sub)
    (constant : sub.isConstant = true) {value : Value}
    (hvalue : Alike Value.Same (.ok value) sub.constantOutcome) :
    (constants.keep home id value).Correct tree home :=
  Holds.keep h hsub ⟨constant, hvalue⟩

theorem value_eq_none (h : constants.Correct tree home) (hsub : tree.Sub id sub)
    (hnot : sub.isConstant = false) : (constants.cell home id).value = none :=
  Holds.value_eq_none h hsub fun _ hgood => Bool.false_ne_true (hnot.symm.trans hgood.1)

end Correct

/-- A property that makes the values kept for the tree correct, and bears with all that its nodes
note and keep as long as it is right. -/
structure Fit (tree : Tree) (home : TreeId) (property : Constants → Prop) : Prop where
  correct : ∀ {constants}, property constants → constants.Correct tree home
  check : ∀ {constants}, property constants → ∀ id, property (constants.check home id)
  keep : ∀ {constants}, property constants → ∀ {id sub value}, tree.Sub id sub →
    sub.isConstant = true → Alike Value.Same (.ok value) sub.constantOutcome →
      property (constants.keep home id value)

theorem Fit.self (tree : Tree) (home : TreeId) : Fit tree home (Correct tree home) where
  correct := id
  check := Correct.check
  keep h _ _ _ hsub constant hvalue := Correct.keep h hsub constant hvalue

theorem exists_value_keep (constants : Constants) (home : TreeId) (id : NodeId) (value : Value) :
    ∃ held, ((constants.keep home id value).cell home id).value = some held := by
  rw [keep]
  split
  next held hheld => exact ⟨held, hheld⟩
  next => exact ⟨value, by simp⟩

end Constants

/-! ### Gets -/

namespace Engine

/-- A node that says that it is not constant, and for which nothing is kept, runs its body. -/
theorem cached_eq_act_of_none {home : TreeId} {id : NodeId} {ask : Eval Bool} {act : Eval Value}
    (hask : ∀ world, ask world = (.ok (.ok false), world)) {world : World}
    (hnone : (world.constants.cell home id).value = none) :
    ∃ begun : World, begun.surface = world.surface ∧
      (begun.constants = world.constants ∨ begun.constants = world.constants.check home id) ∧
      cached home id ask act world = act begun := by
  rw [cached]
  split
  next => exact ⟨world, rfl, .inl rfl, by rw [kept, hnone]⟩
  next =>
    refine ⟨{ world with constants := world.constants.check home id }, rfl, .inr rfl, ?_⟩
    have hcheck : ((world.constants.check home id).cell home id).value = none := by
      rw [Constants.check, Constants.cell_put, if_pos ⟨rfl, rfl⟩]
      exact hnone
    rw [Eval.andThen, hask]
    simp only [kept, hcheck]

/-- A constant node is no chain, so its body runs whatever accessors there are. -/
theorem substitute?_of_constant {body : Body} {slots : List (Option Tree)}
    (constant : (Tree.node body slots).isConstant = true) (env : Env) (home : TreeId)
    (id : NodeId) : substitute? env home id body = none := by
  cases body <;> first | rfl | cases constant

variable {tree sub : Tree} {home : TreeId} {id : NodeId} {ask : Eval Bool} {act : Eval Value}
  {property : Constants → Prop} (fit : Constants.Fit tree home property)
include fit

theorem yields_kept (hsub : tree.Sub id sub)
    (h : act.Yields property Value.Same sub.constantOutcome) :
    (kept home id act).Yields property Value.Same sub.constantOutcome := by
  intro world hworld
  rw [kept]
  cases hvalue : (world.constants.cell home id).value with
  | none => exact h world hworld
  | some value =>
    exact ⟨.ok value, world, rfl, (fit.correct hworld id sub value hsub hvalue).2, rfl, hworld⟩

theorem yields_keeping (hsub : tree.Sub id sub) (constant : sub.isConstant = true)
    (h : act.Yields property Value.Same sub.constantOutcome) :
    (keeping home id act).Yields property Value.Same sub.constantOutcome := by
  intro world hworld
  obtain ⟨answer, after, hact, halike, hsurface, hafter⟩ := h world hworld
  rw [keeping, Eval.andThen, hact]
  cases answer with
  | error error => exact ⟨.error error, after, rfl, halike, hsurface, hafter⟩
  | ok value =>
    have hkeep := fit.keep hafter hsub constant halike
    obtain ⟨held, hheld⟩ := after.constants.exists_value_keep home id value
    refine ⟨.ok held, { after with constants := after.constants.keep home id value }, ?_,
      (fit.correct hkeep id sub held hsub hheld).2, hsurface, hkeep⟩
    simp only [hheld, Option.getD_some]

theorem yields_cached (hsub : tree.Sub id sub) (constant : sub.isConstant = true)
    (hask : ∀ world, ask world = (.ok (.ok true), world))
    (h : act.Yields property Value.Same sub.constantOutcome) :
    (cached home id ask act).Yields property Value.Same sub.constantOutcome := by
  intro world hworld
  rw [cached]
  split
  next => exact yields_kept fit hsub h world hworld
  next =>
    rw [Eval.andThen, hask]
    exact yields_keeping fit hsub constant h { world with constants := _ } (fit.check hworld id)

theorem cached_eq_act (hsub : tree.Sub id sub) (hnot : sub.isConstant = false)
    (hask : ∀ world, ask world = (.ok (.ok false), world)) {world : World}
    (hworld : property world.constants) :
    ∃ begun : World, begun.surface = world.surface ∧ property begun.constants ∧
      cached home id ask act world = act begun := by
  have hnone := (fit.correct hworld).value_eq_none hsub hnot
  obtain ⟨begun, hbegun, hconstants, hcached⟩ :
      ∃ begun : World, begun.surface = world.surface ∧
        (begun.constants = world.constants ∨ begun.constants = world.constants.check home id) ∧
        cached home id ask act world = act begun := cached_eq_act_of_none hask hnone
  refine ⟨begun, hbegun, ?_, hcached⟩
  rcases hconstants with h | h
  · exact h ▸ hworld
  · exact h ▸ fit.check hworld id

end Engine

namespace Tree

section Layers
variable {env : Env} {home : TreeId} {id : NodeId} {body : Body} {slots : List (Option Tree)}

theorem handle_get (h : Engine.substitute? env home id body = none) (source : Value) :
    ((Tree.node body slots).handle env home id).get source =
      Engine.traced id body.kind source false some (Engine.visiting id source
        (Engine.cached home id (((Tree.node body slots).handle env home id).ask .constant)
          ((body.read (seat (.node body slots)) source).run
            (Engine.reach body.kind (child env home (id + 1) slots)) env.gateway))) := by
  rw [handle, Engine.node]
  simp only [h]

theorem handle_get_of_accessor {accessor : Accessor}
    (h : Engine.substitute? env home id body = some accessor) (source : Value) :
    ((Tree.node body slots).handle env home id).get source =
      Engine.traced id body.kind source false some (Engine.visiting id source
        (Engine.cached home id (((Tree.node body slots).handle env home id).ask .constant)
          ((accessor.read source).run env.enter env.gateway))) := by
  rw [handle, Engine.node]
  simp only [h]

theorem handle_set (h : Engine.substitute? env home id body = none) (target value : Value) :
    ((Tree.node body slots).handle env home id).set target value =
      Engine.traced id body.kind target true (fun _ => none) (Engine.visiting id target
        ((body.assign (seat (.node body slots)) target value).run
          (Engine.reach body.kind (child env home (id + 1) slots)) env.gateway)) := by
  rw [handle, Engine.node]
  simp only [h]

theorem handle_set_of_accessor {accessor : Accessor}
    (h : Engine.substitute? env home id body = some accessor) (target value : Value) :
    ((Tree.node body slots).handle env home id).set target value =
      Engine.traced id body.kind target true (fun _ => none) (Engine.visiting id target
        ((accessor.assign target value).run env.enter env.gateway)) := by
  rw [handle, Engine.node]
  simp only [h]

end Layers

section Constancy
variable {tree sub : Tree} {home : TreeId} {id : NodeId} {property : Constants → Prop}
  (fit : Constants.Fit tree home property) {env : Env}
include fit

theorem cached_ask_eq_act (hsub : tree.Sub id sub) (reference : sub.isReference = true)
    (hnot : sub.isConstant = false) {act : Eval Value} {world : World}
    (hworld : property world.constants) :
    ∃ begun : World, begun.surface = world.surface ∧ property begun.constants ∧
      Engine.cached home id ((sub.handle env home id).ask .constant) act world = act begun := by
  refine Engine.cached_eq_act fit hsub hnot ?_ hworld
  intro world
  rw [ask_constant reference, hnot]

/-- A get of a constant node has its outcome, whatever the source and the state are. -/
theorem yields_get (hsub : tree.Sub id sub) (reference : sub.isReference = true)
    (constant : sub.isConstant = true) (source : Value) :
    ((sub.handle env home id).get source).Yields property Value.Same sub.constantOutcome := by
  induction id, sub using child_induction generalizing source with
  | node id body slots ih =>
    rw [handle_get (Engine.substitute?_of_constant constant env home id)]
    apply Eval.Yields.traced
    apply Eval.Yields.visiting
    have hask : ∀ world, (((Tree.node body slots).handle env home id).ask .constant) world =
        (.ok (.ok true), world) := by
      intro world
      rw [ask_constant reference, constant]
    apply Engine.yields_cached fit hsub constant hask
    apply yields_read reference constant
    intro hslots index hindex source
    rw [isReference, Bool.and_eq_true] at reference
    obtain ⟨entry, hentry, hconstant⟩ := isConstant_child (id + 1) hslots hindex
    rw [slotOutcome_of_child hentry, Engine.reach, child_eq, Option.mem_def.1 hentry]
    exact ih index entry hentry (hsub.child hentry) (isReference_child reference.2 hentry)
      hconstant source

end Constancy

end Tree

/-! ### Preservation -/

/-- Whatever comes of the computation, the constants stay such. -/
def Eval.Preserves {α : Type} (property : Constants → Prop) (act : Eval α) : Prop :=
  ∀ world, property world.constants → property (act world).2.constants

structure Handle.Preserves (property : Constants → Prop) (handle : Handle) : Prop where
  get : ∀ source, (handle.get source).Preserves property
  set : ∀ target value, (handle.set target value).Preserves property
  ask : ∀ question, (handle.ask question).Preserves property

namespace Eval.Preserves
variable {α β : Type} {property : Constants → Prop}

theorem finish (outcome : Except EvalError α) : (Eval.finish outcome).Preserves property :=
  fun _ h => h

theorem andThen {act : Eval α} (first : act.Preserves property)
    {next : Except EvalError α → Eval β} (hnext : ∀ outcome, (next outcome).Preserves property) :
    (act.andThen next).Preserves property := by
  intro world h
  have hfirst := first world h
  rw [Eval.andThen]
  split
  next outcome after hact =>
    rw [hact] at hfirst
    exact hnext outcome after hfirst
  next misuse after hact =>
    rw [hact] at hfirst
    exact hfirst

theorem invoke (gateway : Option Registry) (call : Invocation) :
    (ObjectNavigation.invoke gateway call).Preserves property := by
  intro world h
  cases gateway <;> exact h

theorem run {C : Type} {reach : C → Handle} (hreach : ∀ child, (reach child).Preserves property)
    (gateway : Option Registry) (script : Script C α) :
    (script.run reach gateway).Preserves property := by
  induction script with
  | done outcome => exact finish outcome
  | get child source rest ih => exact ((hreach child).get source).andThen ih
  | set child target value rest ih => exact ((hreach child).set target value).andThen ih
  | ask child question rest ih => exact ((hreach child).ask question).andThen ih
  | invoke call rest ih => exact (invoke gateway call).andThen ih
  | look rest ih => exact fun world h => ih world.surface world h
  | locate rest ih => exact fun world h => ih world.context.position world h
  | alter change rest ih => exact fun world h => ih (world.withSurface (change world.surface)) h

theorem traced {act : Eval α} (h : act.Preserves property) (node : NodeId) (kind : Kind)
    (source : Value) (setter : Bool) (result : α → Option Value) :
    (Engine.traced node kind source setter result act).Preserves property := by
  intro world hworld
  obtain ⟨begun, _, hconstants, _, _, hafter⟩ :=
    Engine.traced_eq node kind source setter result act world
  rw [hafter]
  exact h begun (hconstants ▸ hworld)

theorem visiting {act : Eval α} (h : act.Preserves property) (node : NodeId) (object : Value) :
    (Engine.visiting node object act).Preserves property :=
  fun world hworld => h (world.visit node object) hworld

section Cached
variable {home : TreeId} {id : NodeId} {ask : Eval Bool} {act : Eval Value}

theorem kept (h : act.Preserves property) : (Engine.kept home id act).Preserves property := by
  intro world hworld
  rw [Engine.kept]
  cases (world.constants.cell home id).value with
  | some value => exact hworld
  | none => exact h world hworld

/-- A get by way of the constant of a node notes that it was asked, and keeps a value if the answer
was that it is constant. -/
theorem cached (hask : ask.Preserves property) (h : act.Preserves property)
    (check : ∀ constants, property constants → property (constants.check home id))
    (keep : ∀ world after, ask world = (.ok (.ok true), after) → ∀ constants value,
      property constants → property (constants.keep home id value)) :
    (Engine.cached home id ask act).Preserves property := by
  intro world hworld
  rw [Engine.cached]
  split
  next => exact h.kept world hworld
  next =>
    have hasked := hask { world with constants := world.constants.check home id }
      (check world.constants hworld)
    rw [Eval.andThen]
    rcases hanswer : ask { world with constants := world.constants.check home id } with
      ⟨misuse | error | constant, after⟩ <;> rw [hanswer] at hasked
    · exact hasked
    · exact hasked
    · cases constant with
      | false => exact h.kept after hasked
      | true =>
        refine h.andThen (fun outcome => ?_) after hasked
        cases outcome with
        | error error => exact finish _
        | ok value => exact fun last hlast => keep _ _ hanswer last.constants value hlast

end Cached

end Eval.Preserves

namespace Handle.Preserves
variable {property : Constants → Prop}

theorem absent (error : EvalError) : (Handle.absent error).Preserves property where
  get _ := .finish _
  set _ _ := .finish _
  ask _ := .finish _

theorem stray (misuse : Misuse) : (Handle.stray misuse).Preserves property where
  get _ := fun _ h => h
  set _ _ := fun _ h => h
  ask _ := fun _ h => h

theorem reach {child : Nat → Option Handle} {index : Nat}
    (h : ∀ handle ∈ child index, handle.Preserves property) (kind : Kind) :
    (Engine.reach kind child index).Preserves property := by
  rw [Engine.reach]
  cases hchild : child index with
  | none => exact absent _
  | some handle => exact h handle hchild

end Handle.Preserves

structure Accessor.Preserves (accessor : Accessor) (env : Env) (property : Constants → Prop) :
    Prop where
  read : ∀ source, ((accessor.read source).run env.enter env.gateway).Preserves property
  assign : ∀ target value,
    ((accessor.assign target value).run env.enter env.gateway).Preserves property

namespace Tree
variable {env : Env} {home : TreeId} {id : NodeId} {property : Constants → Prop}

/-- But for what a get notes and keeps, a node keeps a property that its children and its accessor
keep. -/
theorem handle_preserves_of_child {body : Body} {slots : List (Option Tree)}
    (accessors : ∀ accessor ∈ env.accessor home id, accessor.Preserves env property)
    (children : ∀ index, ∀ entry ∈ child? (id + 1) slots index,
      (entry.2.handle env home entry.1).Preserves property)
    (cached : ∀ source, ∀ act : Eval Value, act.Preserves property →
      (((Tree.node body slots).handle env home id).ask .constant).Preserves property →
      ((Tree.node body slots).handle env home id).get source =
        Engine.traced id body.kind source false some (Engine.visiting id source
          (Engine.cached home id (((Tree.node body slots).handle env home id).ask .constant) act)) →
      (((Tree.node body slots).handle env home id).get source).Preserves property) :
    ((Tree.node body slots).handle env home id).Preserves property := by
  have hreach : ∀ index,
      (Engine.reach body.kind (child env home (id + 1) slots) index).Preserves property := by
    intro index
    refine Handle.Preserves.reach (fun handle hhandle => ?_) body.kind
    rw [child_eq] at hhandle
    obtain ⟨entry, hentry, rfl⟩ := Option.map_eq_some_iff.1 hhandle
    exact children index entry hentry
  have hask : ∀ question,
      (((Tree.node body slots).handle env home id).ask question).Preserves property :=
    fun question => .run hreach _ _
  constructor
  · intro source
    cases h : Engine.substitute? env home id body with
    | none => exact cached source _ (.run hreach _ _) (hask .constant) (handle_get h source)
    | some accessor =>
      exact cached source _ ((accessors accessor (Engine.substitute?_mem h)).read source)
        (hask .constant) (handle_get_of_accessor h source)
  · intro target value
    cases h : Engine.substitute? env home id body with
    | none =>
      rw [handle_set h]
      apply Eval.Preserves.traced
      apply Eval.Preserves.visiting
      exact .run hreach _ _
    | some accessor =>
      rw [handle_set_of_accessor h]
      apply Eval.Preserves.traced
      apply Eval.Preserves.visiting
      exact (accessors accessor (Engine.substitute?_mem h)).assign target value
  · exact hask

/-- The values kept for a tree stay correct whatever its nodes are used for. -/
theorem handle_preserves {tree sub : Tree} (fit : Constants.Fit tree home property)
    (hsub : tree.Sub id sub) (reference : sub.isReference = true)
    (accessors : ∀ id, ∀ accessor ∈ env.accessor home id, accessor.Preserves env property) :
    (sub.handle env home id).Preserves property := by
  induction id, sub using child_induction with
  | node id body slots ih =>
    have hbody := reference
    rw [isReference, Bool.and_eq_true] at hbody
    have hchildren : ∀ index, ∀ entry ∈ child? (id + 1) slots index,
        (entry.2.handle env home entry.1).Preserves property := fun index entry hentry =>
      ih index entry hentry (hsub.child hentry) (isReference_child hbody.2 hentry)
    refine handle_preserves_of_child (accessors id) hchildren fun source act hact _ hget => ?_
    -- Only a constant node keeps its value, and that is the right one.
    cases constant : (Tree.node body slots).isConstant with
    | true =>
      have hyields : (((Tree.node body slots).handle env home id).get source).Yields property
          Value.Same (Tree.node body slots).constantOutcome :=
        yields_get fit hsub reference constant source
      intro world hworld
      obtain ⟨answer, after, hact, _, _, hafter⟩ := hyields world hworld
      rwa [hact]
    | false =>
      rw [hget]
      apply Eval.Preserves.traced
      apply Eval.Preserves.visiting
      intro world hworld
      obtain ⟨begun, _, hbegun, heq⟩ := cached_ask_eq_act fit hsub reference constant hworld
      rw [heq]
      exact hact begun hbegun

theorem handleAt_preserves_of_sub {tree : Tree}
    (h : ∀ id sub, tree.Sub id sub → (sub.handle env home id).Preserves property) (id : NodeId) :
    (tree.handleAt env home id).Preserves property := by
  rw [handleAt]
  cases hplace : tree.lookUp id with
  | error misuse => exact .stray misuse
  | ok place => exact h id place.subtree (.of_lookUp hplace)

end Tree
end ObjectNavigation
