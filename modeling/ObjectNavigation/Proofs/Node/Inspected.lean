import ObjectNavigation.Proofs.Node.Constant

/-!
Constant expressions over a graph. A constant expression may hold objects; its outcome then depends
on the graph (`Tree.outcomeIn`), but only where an operator looks into a value: addition writes out
what it is given, and the failure of an operation names types. So the outcome is the same in all
graphs in which the values below operators, `Tree.inspected`, have the same text and the same type
name (`Tree.outcomeIn_eq`).
-/

namespace ObjectNavigation

/-! ### Outcomes -/

namespace Body
variable {heap heap' : Heap}

/-- The outcome of a constant node in this graph, if its children have these outcomes. -/
def outcomeIn (heap : Heap) (body : Body) (slots : Nat) (outcome : Nat → Except EvalError Value) :
    Except EvalError Value :=
  match body with
  | const value => .ok value
  | arithmetic op => do
    match ← (List.range slots).mapM outcome with
    | [] => .error (.missingChild op.kind 0)
    | value :: rest => fold op heap value rest
  | negate => do (← outcome 0).negate heap
  | list => do return .list 0 (← (List.range slots).mapM outcome)
  | _ => .error default

section Looks
variable {outcome : Nat → Except EvalError Value}
  (looks : ∀ index value, outcome index = .ok value → value.LooksAlike heap heap')
include looks

theorem outcomeIn_of_looksAlike (body : Body) (slots : Nat) :
    body.outcomeIn heap slots outcome = body.outcomeIn heap' slots outcome := by
  cases body with
  | arithmetic op =>
    simp only [outcomeIn]
    cases h : (List.range slots).mapM outcome with
    | error error => rfl
    | ok values =>
      cases values with
      | nil => rfl
      | cons value rest =>
        obtain ⟨hvalue, hrest⟩ := List.forall_mem_cons.1 (forall_mem_of_mapM looks h)
        exact fold_of_looksAlike op hvalue hrest
  | negate =>
    simp only [outcomeIn]
    cases h : outcome 0 with
    | error error => rfl
    | ok value => exact (looks 0 value h).negate
  | _ => rfl

theorem looksAlike_of_outcomeIn {body : Body}
    (hbody : ∀ value, body = .const value → value.LooksAlike heap heap') {held : Heap}
    {slots : Nat} {value : Value} (h : body.outcomeIn held slots outcome = .ok value) :
    value.LooksAlike heap heap' := by
  cases body with
  | const constant =>
    cases h
    exact hbody value rfl
  | arithmetic op =>
    obtain ⟨values, hvalues, h⟩ := bind_eq_ok_iff.1 h
    cases values with
    | nil => cases h
    | cons first rest =>
      exact looksAlike_of_fold (forall_mem_of_mapM looks hvalues first List.mem_cons_self) h
  | negate =>
    obtain ⟨operand, _, h⟩ := bind_eq_ok_iff.1 h
    exact .of_isObjectFree (Value.isObjectFree_of_negate h)
  | list =>
    obtain ⟨values, hvalues, h⟩ := bind_eq_ok_iff.1 h
    cases h
    exact .list (forall_mem_of_mapM looks hvalues) 0
  | property _ | chain | method _ | staticMethod _ _ | host _ => cases h

end Looks

end Body

namespace Tree
variable {heap heap' : Heap}

mutual

def outcomeIn (heap : Heap) : Tree → Except EvalError Value
  | node body slots => body.outcomeIn heap slots.length (slotOutcomeIn heap slots)

def slotOutcomeIn (heap : Heap) : List (Option Tree) → Nat → Except EvalError Value
  | [], _ => .error default
  | none :: _, 0 => .error default
  | some child :: _, 0 => child.outcomeIn heap
  | none :: rest, index + 1 => slotOutcomeIn heap rest index
  | some _ :: rest, index + 1 => slotOutcomeIn heap rest index

end

mutual

/-- The values of the constants that the expression is made of. -/
def held : Tree → List Value
  | node body slots =>
    match body with
    | .const value => [value]
    | _ => slotsHeld slots

def slotsHeld : List (Option Tree) → List Value
  | [] => []
  | none :: rest => slotsHeld rest
  | some child :: rest => child.held ++ slotsHeld rest

end

mutual

/-- The values of the constants below operators. -/
def inspected : Tree → List Value
  | node body slots =>
    match body with
    | .arithmetic _ | .negate => slotsHeld slots
    | .list => slotsInspected slots
    | _ => []

def slotsInspected : List (Option Tree) → List Value
  | [] => []
  | none :: rest => slotsInspected rest
  | some child :: rest => child.inspected ++ slotsInspected rest

end

mutual

theorem outcomeIn_of_held {tree : Tree}
    (h : ∀ value ∈ tree.held, value.LooksAlike heap heap') :
    tree.outcomeIn heap = tree.outcomeIn heap' ∧
      ∀ value, tree.outcomeIn heap = .ok value → value.LooksAlike heap heap' := by
  match tree with
  | .node body slots =>
    rw [outcomeIn, outcomeIn]
    by_cases hconst : ∃ value, body = .const value
    · obtain ⟨value, rfl⟩ := hconst
      refine ⟨rfl, ?_⟩
      rintro _ ⟨⟩
      exact h value (by rw [held]; exact List.mem_cons_self)
    · have hslots : ∀ value ∈ slotsHeld slots, value.LooksAlike heap heap' := by
        intro value hvalue
        apply h value
        cases body with
        | const constant => exact absurd ⟨constant, rfl⟩ hconst
        | _ => exact hvalue
      have heq : slotOutcomeIn heap slots = slotOutcomeIn heap' slots :=
        funext fun index => (slotOutcomeIn_of_held hslots index).1
      have hlooks := fun index => (slotOutcomeIn_of_held hslots index).2
      refine ⟨?_, fun value hvalue => Body.looksAlike_of_outcomeIn hlooks ?_ hvalue⟩
      · rw [Body.outcomeIn_of_looksAlike hlooks, heq]
      · intro constant hbody
        exact absurd ⟨constant, hbody⟩ hconst

theorem slotOutcomeIn_of_held {slots : List (Option Tree)}
    (h : ∀ value ∈ slotsHeld slots, value.LooksAlike heap heap') (index : Nat) :
    slotOutcomeIn heap slots index = slotOutcomeIn heap' slots index ∧
      ∀ value, slotOutcomeIn heap slots index = .ok value → value.LooksAlike heap heap' := by
  match slots, index with
  | [], _ => exact ⟨rfl, nofun⟩
  | none :: _, 0 => exact ⟨rfl, nofun⟩
  | none :: rest, index + 1 =>
    have hrest : ∀ value ∈ slotsHeld rest, value.LooksAlike heap heap' := h
    exact slotOutcomeIn_of_held hrest index
  | some child :: rest, 0 =>
    exact outcomeIn_of_held fun value hvalue => h value (List.mem_append_left _ hvalue)
  | some child :: rest, index + 1 =>
    exact slotOutcomeIn_of_held (fun value hvalue => h value (List.mem_append_right _ hvalue)) index

end

mutual

/-- A constant expression has one outcome in all graphs in which what its operators see looks
alike. -/
theorem outcomeIn_eq {tree : Tree} (h : ∀ value ∈ tree.inspected, value.LooksAlike heap heap') :
    tree.outcomeIn heap = tree.outcomeIn heap' := by
  match tree with
  | .node body slots =>
    rw [outcomeIn, outcomeIn]
    cases body with
    | arithmetic _ | negate =>
      have heq : slotOutcomeIn heap slots = slotOutcomeIn heap' slots :=
        funext fun index => (slotOutcomeIn_of_held h index).1
      rw [Body.outcomeIn_of_looksAlike fun index => (slotOutcomeIn_of_held h index).2, heq]
    | list => rw [funext (slotOutcomeIn_eq h), Body.outcomeIn, Body.outcomeIn]
    | const _ | property _ | chain | method _ | staticMethod _ _ | host _ => rfl

theorem slotOutcomeIn_eq {slots : List (Option Tree)}
    (h : ∀ value ∈ slotsInspected slots, value.LooksAlike heap heap') (index : Nat) :
    slotOutcomeIn heap slots index = slotOutcomeIn heap' slots index := by
  match slots, index with
  | [], _ => rfl
  | none :: _, 0 => rfl
  | none :: rest, index + 1 =>
    have hrest : ∀ value ∈ slotsInspected rest, value.LooksAlike heap heap' := h
    exact slotOutcomeIn_eq hrest index
  | some child :: rest, 0 =>
    exact outcomeIn_eq fun value hvalue => h value (List.mem_append_left _ hvalue)
  | some child :: rest, index + 1 =>
    exact slotOutcomeIn_eq (fun value hvalue => h value (List.mem_append_right _ hvalue)) index

end

/-! ### Children -/

section Children
variable {next : NodeId} {slots : List (Option Tree)} {index : Nat} {entry : NodeId × Tree}

theorem slotOutcomeIn_of_child (h : entry ∈ child? next slots index) :
    slotOutcomeIn heap slots index = entry.2.outcomeIn heap := by
  induction slots generalizing next index with
  | nil => simp [child?] at h
  | cons first rest ih =>
    cases first <;> cases index
    case none.zero => simp [child?] at h
    case none.succ index => exact ih h
    case some.zero first =>
      cases h
      rfl
    case some.succ first index => exact ih h

theorem held_child (h : entry ∈ child? next slots index) : entry.2.held ⊆ slotsHeld slots :=
  of_child? (·.held ⊆ slotsHeld slots) (slotsHeld · ⊆ slotsHeld slots) (fun _ => id)
    (fun _ _ => List.append_subset.1) (List.Subset.refl _) h

theorem inspected_child (h : entry ∈ child? next slots index) :
    entry.2.inspected ⊆ slotsInspected slots :=
  of_child? (·.inspected ⊆ slotsInspected slots) (slotsInspected · ⊆ slotsInspected slots)
    (fun _ => id) (fun _ _ => List.append_subset.1) (List.Subset.refl _) h

end Children

mutual

theorem inspected_subset_held (tree : Tree) : tree.inspected ⊆ tree.held := by
  match tree with
  | .node body slots =>
    cases body with
    | arithmetic _ | negate => exact List.Subset.refl _
    | list => exact slotsInspected_subset_slotsHeld slots
    | _ => exact List.nil_subset _

theorem slotsInspected_subset_slotsHeld (slots : List (Option Tree)) :
    slotsInspected slots ⊆ slotsHeld slots := by
  match slots with
  | [] => exact List.nil_subset _
  | none :: rest => exact slotsInspected_subset_slotsHeld rest
  | some child :: rest =>
    exact List.append_subset.2
      ⟨List.subset_append_of_subset_left _ (inspected_subset_held child),
        List.subset_append_of_subset_right _ (slotsInspected_subset_slotsHeld rest)⟩

end

theorem inspected_child_subset {body : Body} (hbody : ∀ value, body ≠ .const value) {id : NodeId}
    {slots : List (Option Tree)} (constant : (Tree.node body slots).isConstant = true)
    {index : Nat} {entry : NodeId × Tree} (h : entry ∈ child? (id + 1) slots index) :
    entry.2.inspected ⊆ (Tree.node body slots).inspected := by
  cases body with
  | const value => exact absurd rfl (hbody value)
  | arithmetic _ | negate =>
    exact List.Subset.trans (inspected_subset_held entry.2) (held_child h)
  | list => exact inspected_child h
  | property _ | chain | method _ | staticMethod _ _ | host _ => cases constant

end Tree
end ObjectNavigation
