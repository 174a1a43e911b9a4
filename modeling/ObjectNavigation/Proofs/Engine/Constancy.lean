import ObjectNavigation.Proofs.Engine.Activation
import ObjectNavigation.Proofs.Node.Constant
import ObjectNavigation.Proofs.Node.Standard

/-!
Evaluation of constant expressions. Asked whether it is constant, a node answers by its shape and
changes nothing (`Tree.ask_constant`). The body of a constant node has the outcome
`Tree.constantOutcome` whatever the source and the state are, and changes nothing but the number of
list identities, provided that its children do so (`Tree.yields_read`).
-/

namespace ObjectNavigation

theorem Eval.andThen_andThen {α β γ : Type} (act : Eval α) (f : Except EvalError α → Eval β)
    (g : Except EvalError β → Eval γ) :
    (act.andThen f).andThen g = act.andThen fun outcome => (f outcome).andThen g := by
  funext world
  simp only [Eval.andThen]
  rcases act world with ⟨misuse | outcome, after⟩ <;> rfl

theorem Eval.andThen_finish {α : Type} (act : Eval α) : act.andThen finish = act := by
  funext world
  rw [Eval.andThen]
  rcases act world with ⟨misuse | outcome, after⟩ <;> rfl

namespace Script
variable {C α β : Type}

theorem run_andThen (reach : C → Handle) (gateway : Option Registry) (script : Script C α)
    (next : Except EvalError α → Script C β) :
    (script.andThen next).run reach gateway =
      (script.run reach gateway).andThen fun outcome => (next outcome).run reach gateway := by
  induction script with
  | done outcome => rfl
  | get child source rest ih => simp only [andThen, run, Eval.andThen_andThen, ih]
  | set child target value rest ih => simp only [andThen, run, Eval.andThen_andThen, ih]
  | ask child question rest ih => simp only [andThen, run, Eval.andThen_andThen, ih]
  | invoke call rest ih => simp only [andThen, run, Eval.andThen_andThen, ih]
  | look rest ih =>
    simp only [andThen, run, ih]
    rfl
  | locate rest ih =>
    simp only [andThen, run, ih]
    rfl
  | alter change rest ih =>
    simp only [andThen, run, ih]
    rfl

theorem run_getValue (reach : C → Handle) (gateway : Option Registry) (child : C)
    (source : Value) : (getValue child source).run reach gateway = (reach child).get source :=
  Eval.andThen_finish _

theorem run_setValue (reach : C → Handle) (gateway : Option Registry) (child : C)
    (target value : Value) :
    (setValue child target value).run reach gateway = (reach child).set target value :=
  Eval.andThen_finish _

end Script

/-! ### Asking -/

theorem Body.run_allAgree {question : Question} {reach : Nat → Handle} {answers : Nat → Bool}
    {indices : List Nat}
    (hask : ∀ index ∈ indices, ∀ world,
      (reach index).ask question world = (.ok (.ok (answers index)), world))
    (gateway : Option Registry) (world : World) :
    (allAgree question indices).run reach gateway world =
      (.ok (.ok (indices.all answers)), world) := by
  induction indices with
  | nil => rfl
  | cons index rest ih =>
    obtain ⟨hindex, hrest⟩ := List.forall_mem_cons.1 hask
    rw [allAgree, Script.bind_eq_andThen, Script.run_andThen]
    have hquestion : (Script.question index question).run reach gateway world =
        (.ok (.ok (answers index)), world) := by
      simp only [Script.question, Script.run, Eval.andThen, hindex]
      rfl
    rw [Eval.andThen, hquestion, List.all_cons]
    cases answers index with
    | true => exact ih hrest
    | false => rfl

theorem Body.isStandard_of_isReference {body : Body} (reference : body.isReference = true) :
    body.isStandard = true := by
  cases body with
  | host host => cases reference
  | _ => rfl

namespace Tree

mutual

theorem standard_of_isReference {tree : Tree} (reference : tree.isReference = true) :
    tree.all Body.isStandard = true := by
  match tree with
  | .node body slots =>
    rw [isReference, Bool.and_eq_true] at reference
    rw [all, slotsStandard_of_slotsReference reference.2, Bool.and_true]
    exact Body.isStandard_of_isReference reference.1

theorem slotsStandard_of_slotsReference {slots : List (Option Tree)}
    (reference : slotsReference slots = true) : slotsAll Body.isStandard slots = true := by
  match slots with
  | [] => rfl
  | none :: rest =>
    have hrest : slotsAll Body.isStandard rest = true := slotsStandard_of_slotsReference reference
    exact hrest
  | some child :: rest =>
    rw [slotsReference, Bool.and_eq_true] at reference
    rw [slotsAll, standard_of_isReference reference.1, slotsStandard_of_slotsReference reference.2,
      Bool.and_true]

end

/-- A node of the library answers by its shape whether it is constant, and nothing changes. -/
theorem ask_constant_of_standard {tree : Tree} (standard : tree.all Body.isStandard = true)
    (env : Env) (home : TreeId) (id : NodeId) (world : World) :
    (tree.handle env home id).ask .constant world = (.ok (.ok tree.isConstant), world) := by
  induction id, tree using child_induction generalizing world with
  | node id body slots ih =>
    rw [all, Bool.and_eq_true] at standard
    have hchild : ∀ index world,
        (Engine.reach body.kind (child env home (id + 1) slots) index).ask .constant world =
          (.ok (.ok ((child? (id + 1) slots index).any fun entry => entry.2.isConstant)),
            world) := by
      intro index world
      rw [Engine.reach, child_eq]
      cases h : child? (id + 1) slots index with
      | none => rfl
      | some entry => exact ih index entry h (all_child standard.2 h) world
    have hagree : slots ≠ [] → (body.childrenConstant (seat (.node body slots))).run
        (Engine.reach body.kind (child env home (id + 1) slots)) env.gateway world =
          (.ok (.ok (slotsConstant slots)), world) := by
      intro hne
      have hslots : (seat (.node body slots)).slots ≠ 0 := by simpa [seat] using hne
      rw [Body.childrenConstant, Body.slotsConstant, if_neg hslots, ← all_isConstant_child (id + 1)]
      exact Body.run_allAgree (fun index _ => hchild index) _ _
    cases body with
    | arithmetic _ | negate | list =>
      cases slots with
      | nil => rfl
      | cons slot rest => exact hagree (List.cons_ne_nil slot rest)
    | host host => cases standard.1
    | const _ | property _ | chain | method _ | staticMethod _ _ => rfl

theorem ask_constant {tree : Tree} (reference : tree.isReference = true) (env : Env)
    (home : TreeId) (id : NodeId) (world : World) :
    (tree.handle env home id).ask .constant world = (.ok (.ok tree.isConstant), world) :=
  ask_constant_of_standard (standard_of_isReference reference) env home id world

end Tree

/-! ### Layers -/

namespace Constants
variable {tree other : TreeId} {node place : NodeId}

theorem cell_check_of_ne (constants : Constants) (h : ¬(other = tree ∧ place = node)) :
    (constants.check tree node).cell other place = constants.cell other place := by
  rw [check, cell_put, if_neg h]

theorem cell_keep_of_ne (constants : Constants) (value : Value)
    (h : ¬(other = tree ∧ place = node)) :
    (constants.keep tree node value).cell other place = constants.cell other place := by
  rw [keep]
  split
  next => rfl
  next => rw [cell_put, if_neg h]

end Constants

theorem Engine.cell_keeping_of_ne {tree home : TreeId} {node id : NodeId} (act : Eval Value)
    (world : World) (h : ¬(tree = home ∧ node = id)) :
    (keeping home id act world).2.constants.cell tree node =
      (act world).2.constants.cell tree node := by
  rw [keeping, Eval.andThen]
  rcases act world with ⟨misuse | error | value, after⟩
  · rfl
  · rfl
  · exact after.constants.cell_keep_of_ne value h

/-- A recorded call does what it does in a state that differs in the trace, and leads to a state
that differs in the trace. -/
theorem Engine.traced_eq_withTrace {α : Type} (node : NodeId) (kind : Kind) (source : Value)
    (setter : Bool) (result : α → Option Value) (act : Eval α) (world : World) :
    ∃ trace trace' : Trace,
      (traced node kind source setter result act world).1 = (act (world.withTrace trace)).1 ∧
      (traced node kind source setter result act world).2 =
        (act (world.withTrace trace)).2.withTrace trace' := by
  obtain ⟨trace', htraced⟩ := Watched.traced_eq_entered node kind source setter result act world
  obtain ⟨trace, hentered⟩ := Watched.entered_eq_withTrace node kind source setter world
  rw [htraced, hentered]
  exact ⟨trace, trace', rfl, rfl⟩

theorem Engine.traced_eq {α : Type} (node : NodeId) (kind : Kind) (source : Value) (setter : Bool)
    (result : α → Option Value) (act : Eval α) (world : World) :
    ∃ begun : World, begun.surface = world.surface ∧ begun.constants = world.constants ∧
      (traced node kind source setter result act world).1 = (act begun).1 ∧
      (traced node kind source setter result act world).2.surface = (act begun).2.surface ∧
      (traced node kind source setter result act world).2.constants = (act begun).2.constants := by
  obtain ⟨trace, trace', hresult, hafter⟩ :=
    traced_eq_withTrace node kind source setter result act world
  rw [hafter]
  exact ⟨world.withTrace trace, rfl, rfl, hresult, rfl, rfl⟩

/-- A computation that ends whatever the trace is ends in the same way when it is recorded. -/
theorem Engine.exists_traced {α : Type} {act : Eval α} {world : World}
    {ends : Except EvalError α → World → Prop}
    (h : ∀ trace, ∃ outcome after, act (world.withTrace trace) = (.ok outcome, after) ∧
      ends outcome after)
    (blind : ∀ {outcome after} trace, ends outcome after → ends outcome (after.withTrace trace))
    (node : NodeId) (kind : Kind) (source : Value) (setter : Bool) (result : α → Option Value) :
    ∃ outcome after, traced node kind source setter result act world = (.ok outcome, after) ∧
      ends outcome after := by
  obtain ⟨trace, trace', hsame, hafter⟩ :=
    traced_eq_withTrace node kind source setter result act world
  obtain ⟨outcome, after, hact, hends⟩ := h trace
  rw [hact] at hsame hafter
  exact ⟨outcome, after.withTrace trace', Prod.ext hsame hafter, blind trace' hends⟩

/-! ### Outcomes that no state changes -/

/-- From every state with such constants the computation has this outcome, up to `same`; it changes
nothing outside but the number of lists, and the constants stay such. -/
def Eval.Yields {α : Type} (property : Constants → Prop) (same : α → α → Prop) (act : Eval α)
    (outcome : Except EvalError α) : Prop :=
  ∀ world, property world.constants → ∃ answer after, act world = (.ok answer, after) ∧
    Alike same answer outcome ∧ after.surface.erase = world.surface.erase ∧ property after.constants

namespace Eval.Yields
variable {α β : Type} {property : Constants → Prop} {same : α → α → Prop} {same' : β → β → Prop}
  {reach : Nat → Handle} {gateway : Option Registry}

theorem done {answer outcome : Except EvalError α} (h : Alike same answer outcome) :
    ((Script.done answer).run reach gateway).Yields property same outcome :=
  fun world hkept => ⟨answer, world, rfl, h, rfl, hkept⟩

theorem bind {script : BodyScript α} {outcome : Except EvalError α}
    (first : (script.run reach gateway).Yields property same outcome) {next : α → BodyScript β}
    {follow : α → Except EvalError β}
    (hnext : ∀ value value', outcome = .ok value' → same value value' →
      ((next value).run reach gateway).Yields property same' (follow value')) :
    ((script >>= next).run reach gateway).Yields property same' (outcome >>= follow) := by
  intro world hkept
  obtain ⟨answer, middle, hact, halike, hsurface, hmiddle⟩ := first world hkept
  rw [Script.bind_eq_andThen, Script.run_andThen, Eval.andThen, hact]
  cases halike with
  | error error => exact ⟨.error error, middle, rfl, .error error, hsurface, hmiddle⟩
  | ok h =>
    obtain ⟨result, after, hafter, halike, hsurface', hkept'⟩ := hnext _ _ rfl h middle hmiddle
    exact ⟨result, after, hafter, halike, hsurface'.trans hsurface, hkept'⟩

theorem heap {next : Heap → BodyScript α} {outcome : Except EvalError α}
    (hnext : ∀ heap, ((next heap).run reach gateway).Yields property same outcome) :
    ((Script.heap >>= next).run reach gateway).Yields property same outcome :=
  fun world hkept => hnext world.heap world hkept

theorem newList {items items' : List Value} (h : Value.AllSame items items') :
    ((Script.newList items).run reach gateway).Yields property Value.Same
      (.ok (.list 0 items')) := by
  intro world hkept
  refine ⟨.ok (.list world.heap.lists items), _, rfl, .ok ?_, rfl, hkept⟩
  rw [Value.Same, Value.erase_list, Value.erase_list, h]

theorem getValue {index : Nat} {source : Value} {outcome : Except EvalError Value}
    (h : ((reach index).get source).Yields property Value.Same outcome) :
    ((Script.getValue index source).run reach gateway).Yields property Value.Same outcome := by
  rwa [Script.run_getValue]

theorem mapM {indices : List Nat} {source : Value} {outcome : Nat → Except EvalError Value}
    (h : ∀ index ∈ indices, ((reach index).get source).Yields property Value.Same (outcome index)) :
    ((indices.mapM (Script.getValue · source)).run reach gateway).Yields property Value.AllSame
      (indices.mapM outcome) := by
  induction indices with
  | nil => exact done (.ok rfl)
  | cons index rest ih =>
    obtain ⟨hindex, hrest⟩ := List.forall_mem_cons.1 h
    rw [List.mapM_cons, List.mapM_cons]
    refine (getValue hindex).bind fun value value' _ hvalue => ?_
    refine (ih hrest).bind fun values values' _ hvalues => done (.ok ?_)
    rw [Value.AllSame, List.map_cons, List.map_cons, hvalue, hvalues]

theorem traced {act : Eval α} {outcome : Except EvalError α} (h : act.Yields property same outcome)
    (node : NodeId) (kind : Kind) (source : Value) (setter : Bool) (result : α → Option Value) :
    (Engine.traced node kind source setter result act).Yields property same outcome :=
  fun world hkept => Engine.exists_traced (fun trace => h (world.withTrace trace) hkept)
    (fun _ hends => hends) node kind source setter result

theorem visiting {act : Eval α} {outcome : Except EvalError α}
    (h : act.Yields property same outcome) (node : NodeId) (object : Value) :
    (Engine.visiting node object act).Yields property same outcome :=
  fun world hkept => h (world.visit node object) hkept

end Eval.Yields

theorem Body.yields_arithmetic {op : Operation} {seat : Seat} (kind : seat.kind = op.kind)
    {source : Value} {property : Constants → Prop} {reach : Nat → Handle}
    {gateway : Option Registry} {slots : Nat} {outcome : Nat → Except EvalError Value}
    (free : ∀ index value, outcome index = .ok value → value.isObjectFree = true)
    (h : ((operands seat source).run reach gateway).Yields property Value.AllSame
      ((List.range slots).mapM outcome)) :
    (((arithmetic op).read seat source).run reach gateway).Yields property Value.Same
      ((arithmetic op).constantOutcome slots outcome) := by
  refine h.bind fun values values' hvalues hsame => ?_
  have looks (heap : Heap) : ∀ value ∈ values', value.LooksAlike heap {} := fun value hvalue =>
    .of_isObjectFree (forall_mem_of_mapM free hvalues value hvalue)
  cases values <;> cases values' <;> simp [Value.AllSame] at hsame
  · refine Eval.Yields.done ?_
    rw [kind]
    exact .error _
  · refine Eval.Yields.heap fun heap => Eval.Yields.done ?_
    obtain ⟨hfirst, hrest⟩ := List.forall_mem_cons.1 (looks heap)
    have hfold := fold_of_looksAlike op hfirst hrest
    show Alike Value.Same _ (fold op {} _ _)
    rw [← hfold]
    exact alike_fold op rfl hsame.1 hsame.2

theorem Tree.yields_read {body : Body} {slots : List (Option Tree)}
    (reference : (Tree.node body slots).isReference = true)
    (constant : (Tree.node body slots).isConstant = true) {property : Constants → Prop}
    {reach : Nat → Handle} (gateway : Option Registry)
    (hreach : slotsConstant slots = true → ∀ index < slots.length, ∀ source,
      ((reach index).get source).Yields property Value.Same (slotOutcome slots index))
    (source : Value) :
    ((body.read (seat (.node body slots)) source).run reach gateway).Yields property Value.Same
      (Tree.node body slots).constantOutcome := by
  rw [isReference, Bool.and_eq_true] at reference
  have hoperands : slotsConstant slots = true →
      ((Body.operands (seat (.node body slots)) source).run reach gateway).Yields property
        Value.AllSame ((List.range slots.length).mapM (slotOutcome slots)) := fun hslots =>
    Eval.Yields.mapM fun index hindex => hreach hslots index (List.mem_range.1 hindex) source
  have hfree : ∀ index value, slotOutcome slots index = .ok value → value.isObjectFree = true :=
    fun index _ => isObjectFree_of_slotOutcome reference.2 index
  cases body with
  | const value => exact Eval.Yields.done (.ok rfl)
  | arithmetic op =>
    rw [isConstant, Bool.and_eq_true] at constant
    exact Body.yields_arithmetic rfl hfree (hoperands constant.2)
  | negate =>
    rw [isConstant, Bool.and_eq_true] at constant
    have hlength : 0 < slots.length := by
      rw [List.length_pos_iff]
      simpa using constant.1
    refine (Eval.Yields.getValue (hreach constant.2 0 hlength source)).bind
      fun value value' hvalue hsame => Eval.Yields.heap fun heap => Eval.Yields.done ?_
    have looks : value'.LooksAlike {} heap := .of_isObjectFree (hfree 0 value' hvalue)
    rw [looks.negate, alike_same_iff, ← Value.negate_erase, hsame, Value.negate_erase]
  | list =>
    rw [isConstant] at constant
    exact (hoperands constant).bind fun values values' _ hsame => Eval.Yields.newList hsame
  | property _ | chain | method _ | staticMethod _ _ | host _ => cases constant

end ObjectNavigation
