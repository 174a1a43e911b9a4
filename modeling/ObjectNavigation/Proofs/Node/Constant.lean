import ObjectNavigation.Proofs.Node.Child
import ObjectNavigation.Proofs.Script.Similar

/-!
Constant expressions. Operators see the text and the type name of a value, so they come to the same
where these are the same (`Value.LooksAlike`). Values that contain no object look alike in all
graphs, and an expression made of such values, operations and lists has one outcome, which neither
a source nor a graph can change: `Tree.constantOutcome`. `Tree.isConstant` says by the shape of a
tree whether it is such an expression.
-/

namespace ObjectNavigation

namespace Value

mutual

def isObjectFree : Value → Bool
  | object _ => false
  | list _ items => allObjectFree items
  | _ => true

def allObjectFree : List Value → Bool
  | [] => true
  | item :: rest => item.isObjectFree && allObjectFree rest

end

theorem allObjectFree_eq_all (items : List Value) :
    allObjectFree items = items.all isObjectFree := by
  induction items with
  | nil => rfl
  | cons item rest ih => simp [allObjectFree, ih]

mutual

theorem textWith_of_isObjectFree {value : Value} (h : value.isObjectFree = true)
    (object object' : ObjectId → String) : value.textWith object = value.textWith object' := by
  match value with
  | .null | .bool _ | .int _ | .float _ | .string _ => simp [textWith]
  | .list id items =>
    rw [isObjectFree] at h
    rw [textWith, textWith, textsWith_of_allObjectFree h object object']
  | .object o => simp [isObjectFree] at h

theorem textsWith_of_allObjectFree {items : List Value} (h : allObjectFree items = true)
    (object object' : ObjectId → String) : textsWith object items = textsWith object' items := by
  match items with
  | [] => rfl
  | item :: rest =>
    rw [allObjectFree, Bool.and_eq_true] at h
    rw [textsWith, textsWith, textWith_of_isObjectFree h.1 object object',
      textsWith_of_allObjectFree h.2 object object']

end

theorem typeName_of_isObjectFree {value : Value} (h : value.isObjectFree = true)
    (heap heap' : Heap) : value.typeName heap = value.typeName heap' := by
  cases value <;> simp_all [typeName, isObjectFree]

theorem isObjectFree_of_negate {heap : Heap} {value result : Value}
    (h : value.negate heap = .ok result) : result.isObjectFree = true := by
  unfold negate Operation.checked at h
  repeat' split at h
  all_goals cases h
  all_goals rfl

end Value

/-! ### What operators see of a value -/

/-- The value has one text and one type name in both graphs. -/
structure Value.LooksAlike (heap heap' : Heap) (value : Value) : Prop where
  debug : value.debug heap = value.debug heap'
  typeName : value.typeName heap = value.typeName heap'

namespace Value.LooksAlike
variable {heap heap' : Heap} {value : Value}

theorem refl (heap : Heap) (value : Value) : value.LooksAlike heap heap :=
  ⟨rfl, rfl⟩

theorem symm (h : value.LooksAlike heap heap') : value.LooksAlike heap' heap :=
  ⟨h.debug.symm, h.typeName.symm⟩

theorem of_isObjectFree (h : value.isObjectFree = true) : value.LooksAlike heap heap' :=
  ⟨textWith_of_isObjectFree h _ _, typeName_of_isObjectFree h heap heap'⟩

theorem list {items : List Value} (h : ∀ item ∈ items, item.LooksAlike heap heap') (id : ListId) :
    (Value.list id items).LooksAlike heap heap' := by
  refine ⟨?_, rfl⟩
  unfold Value.debug
  rw [textWith, textWith, textsWith_eq_map, textsWith_eq_map]
  have hitems := List.map_congr_left fun item hitem => (h item hitem).debug
  exact congrArg (fun texts => "[" ++ ", ".intercalate texts ++ "]") hitems

theorem display (h : value.LooksAlike heap heap') : value.display heap = value.display heap' := by
  cases value with
  | string s => rfl
  | _ => exact h.debug

theorem negate (h : value.LooksAlike heap heap') : value.negate heap = value.negate heap' := by
  have htype := h.typeName
  cases value <;> simp_all [Value.negate, EvalError.unexpected]

end Value.LooksAlike

namespace Operation

theorem apply_of_looksAlike (op : Operation) {heap heap' : Heap} {left right : Value}
    (hleft : left.LooksAlike heap heap') (hright : right.LooksAlike heap heap') :
    op.apply heap left right = op.apply heap' left right := by
  have hnumeric : op.numeric heap left right = op.numeric heap' left right := by
    have htype := hleft.typeName
    have htype' := hright.typeName
    cases left <;> cases right <;> simp_all [numeric]
  rw [apply, apply, hleft.display, hright.display, hnumeric]

theorem isObjectFree_of_apply {op : Operation} {heap : Heap} {left right value : Value}
    (h : op.apply heap left right = .ok value) : value.isObjectFree = true := by
  unfold apply numeric checked at h
  repeat' split at h
  all_goals cases h
  all_goals rfl

end Operation

namespace Body

theorem fold_of_looksAlike (op : Operation) {heap heap' : Heap} {value : Value}
    (hvalue : value.LooksAlike heap heap') {rest : List Value}
    (hrest : ∀ item ∈ rest, item.LooksAlike heap heap') :
    fold op heap value rest = fold op heap' value rest := by
  induction rest generalizing value with
  | nil => rfl
  | cons next rest ih =>
    obtain ⟨hnext, hrest⟩ := List.forall_mem_cons.1 hrest
    rw [fold, fold, op.apply_of_looksAlike hvalue hnext]
    cases h : op.apply heap' value next with
    | error error => rfl
    | ok result => exact ih (.of_isObjectFree (Operation.isObjectFree_of_apply h)) hrest

theorem isObjectFree_of_fold {op : Operation} {heap : Heap} {value result : Value}
    (hvalue : value.isObjectFree = true) {rest : List Value}
    (h : fold op heap value rest = .ok result) : result.isObjectFree = true := by
  induction rest generalizing value with
  | nil => cases h; exact hvalue
  | cons next rest ih =>
    rw [fold] at h
    cases happly : op.apply heap value next with
    | error error => rw [happly] at h; cases h
    | ok middle =>
      rw [happly] at h
      exact ih (Operation.isObjectFree_of_apply happly) h

theorem looksAlike_of_fold {op : Operation} {heap heap' held : Heap} {value result : Value}
    (hvalue : value.LooksAlike heap heap') {rest : List Value}
    (h : fold op held value rest = .ok result) : result.LooksAlike heap heap' := by
  cases rest with
  | nil =>
    cases h
    exact hvalue
  | cons next rest =>
    obtain ⟨middle, happly, h⟩ := bind_eq_ok_iff.1 h
    exact .of_isObjectFree (isObjectFree_of_fold (Operation.isObjectFree_of_apply happly) h)

def isReference : Body → Bool
  | const value => value.isObjectFree
  | host _ => false
  | _ => true

theorem ne_host_of_isReference {body : Body} (h : body.isReference = true) (host : HostBody) :
    body ≠ .host host := by
  rintro rfl
  cases h

/-- The outcome of a constant node whose children have these outcomes. -/
def constantOutcome (body : Body) (slots : Nat) (outcome : Nat → Except EvalError Value) :
    Except EvalError Value :=
  match body with
  | const value => .ok value
  | arithmetic op => do
    match ← (List.range slots).mapM outcome with
    | [] => .error (.missingChild op.kind 0)
    | value :: rest => fold op {} value rest
  | negate => do (← outcome 0).negate {}
  | list => do return .list 0 (← (List.range slots).mapM outcome)
  | _ => .error default

theorem isObjectFree_of_constantOutcome {body : Body} (reference : body.isReference = true)
    {slots : Nat} {outcome : Nat → Except EvalError Value}
    (free : ∀ index value, outcome index = .ok value → value.isObjectFree = true) {value : Value}
    (h : body.constantOutcome slots outcome = .ok value) : value.isObjectFree = true := by
  cases body with
  | const held => cases h; exact reference
  | arithmetic op =>
    obtain ⟨values, hvalues, h⟩ := bind_eq_ok_iff.1 h
    have hfree := forall_mem_of_mapM free hvalues
    cases values with
    | nil => cases h
    | cons first rest => exact isObjectFree_of_fold (hfree first List.mem_cons_self) h
  | negate =>
    obtain ⟨operand, hoperand, h⟩ := bind_eq_ok_iff.1 h
    exact Value.isObjectFree_of_negate h
  | list =>
    obtain ⟨values, hvalues, h⟩ := bind_eq_ok_iff.1 h
    cases h
    rw [Value.isObjectFree, Value.allObjectFree_eq_all, List.all_eq_true]
    exact forall_mem_of_mapM free hvalues
  | property _ | chain | method _ | staticMethod _ _ | host _ => cases h

end Body

namespace Tree

mutual

def isReference : Tree → Bool
  | node body slots => body.isReference && slotsReference slots

def slotsReference : List (Option Tree) → Bool
  | [] => true
  | none :: rest => slotsReference rest
  | some child :: rest => child.isReference && slotsReference rest

end

mutual

/-- Constants, and operations and lists of constant expressions. -/
def isConstant : Tree → Bool
  | node body slots =>
    match body with
    | .const _ => true
    | .arithmetic _ | .negate => !slots.isEmpty && slotsConstant slots
    | .list => slotsConstant slots
    | _ => false

def slotsConstant : List (Option Tree) → Bool
  | [] => true
  | none :: _ => false
  | some child :: rest => child.isConstant && slotsConstant rest

end

mutual

def constantOutcome : Tree → Except EvalError Value
  | node body slots => body.constantOutcome slots.length (slotOutcome slots)

def slotOutcome : List (Option Tree) → Nat → Except EvalError Value
  | [], _ => .error default
  | none :: _, 0 => .error default
  | some child :: _, 0 => child.constantOutcome
  | none :: rest, index + 1 => slotOutcome rest index
  | some _ :: rest, index + 1 => slotOutcome rest index

end

mutual

theorem isObjectFree_of_constantOutcome {tree : Tree} (reference : tree.isReference = true)
    {value : Value} (h : tree.constantOutcome = .ok value) : value.isObjectFree = true := by
  match tree with
  | .node body slots =>
    rw [isReference, Bool.and_eq_true] at reference
    exact Body.isObjectFree_of_constantOutcome reference.1
      (fun index _ => isObjectFree_of_slotOutcome reference.2 index) h

theorem isObjectFree_of_slotOutcome {slots : List (Option Tree)}
    (reference : slotsReference slots = true) (index : Nat) {value : Value}
    (h : slotOutcome slots index = .ok value) : value.isObjectFree = true := by
  match slots, index with
  | [], _ => cases h
  | none :: _, 0 => cases h
  | some child :: rest, 0 =>
    rw [slotsReference, Bool.and_eq_true] at reference
    exact isObjectFree_of_constantOutcome reference.1 h
  | none :: rest, index + 1 =>
    have hrest : slotsReference rest = true := reference
    exact isObjectFree_of_slotOutcome hrest index h
  | some child :: rest, index + 1 =>
    rw [slotsReference, Bool.and_eq_true] at reference
    exact isObjectFree_of_slotOutcome reference.2 index h

end

/-! ### Children -/

section Children
variable {next : NodeId} {slots : List (Option Tree)} {index : Nat} {entry : NodeId × Tree}

theorem isReference_child (reference : slotsReference slots = true)
    (h : entry ∈ child? next slots index) : entry.2.isReference = true := by
  refine of_child? (·.isReference = true) (slotsReference · = true) (fun _ => id) ?_ reference h
  intro child rest hslots
  rwa [slotsReference, Bool.and_eq_true] at hslots

theorem Sub.isReference {tree sub : Tree} {id : NodeId} (hsub : tree.Sub id sub)
    (reference : tree.isReference = true) : sub.isReference = true := by
  induction hsub with
  | root => exact reference
  | child _ h ih =>
    rw [Tree.isReference, Bool.and_eq_true] at ih
    exact isReference_child ih.2 h

theorem slotOutcome_eq (slots : List (Option Tree)) (index : Nat) :
    slotOutcome slots index = slots[index]?.join.elim (.error default) constantOutcome := by
  induction slots generalizing index with
  | nil => rfl
  | cons slot rest ih =>
    cases slot <;> cases index
    case none.zero | some.zero => rfl
    case none.succ index | some.succ index => exact ih index

theorem slotOutcome_of_child (h : entry ∈ child? next slots index) :
    slotOutcome slots index = entry.2.constantOutcome := by
  rw [slotOutcome_eq, slot_of_child? h]
  rfl

theorem isConstant_child (next : NodeId) (constant : slotsConstant slots = true)
    (h : index < slots.length) :
    ∃ entry ∈ child? next slots index, entry.2.isConstant = true := by
  have hsplit : ∀ child rest, slotsConstant (some child :: rest) = true →
      child.isConstant = true ∧ slotsConstant rest = true := by
    intro child rest hslots
    rwa [slotsConstant, Bool.and_eq_true] at hslots
  obtain ⟨entry, hentry⟩ := exists_child? (slotsConstant · = true) (fun _ => nofun)
    (fun child rest hslots => (hsplit child rest hslots).2) next constant h
  refine ⟨entry, hentry, ?_⟩
  exact of_child? (·.isConstant = true) (slotsConstant · = true) (fun _ => nofun) hsplit constant
    hentry

theorem all_isConstant_child (next : NodeId) (slots : List (Option Tree)) :
    ((List.range slots.length).all fun index =>
      (child? next slots index).any fun entry => entry.2.isConstant) = slotsConstant slots := by
  rw [all_range_child? isConstant]
  induction slots with
  | nil => rfl
  | cons first rest ih =>
    cases first with
    | none => rfl
    | some first =>
      rw [slotsConstant, ← ih]
      rfl

end Children

/-! ### Texts -/

mutual

theorem text_respects (tree : Tree) {heap heap' : Heap} (h : heap.erase = heap'.erase) :
    tree.text heap = tree.text heap' := by
  match tree with
  | .node body slots =>
    have hdebug : ∀ value : Value, value.debug heap = value.debug heap' := fun value => by
      rw [← Value.debug_erase, h, Value.debug_erase]
    rw [text, text, operandTexts_respects slots h]
    cases body <;> simp [layout, hdebug]

theorem operandTexts_respects (slots : List (Option Tree)) {heap heap' : Heap}
    (h : heap.erase = heap'.erase) : operandTexts heap slots = operandTexts heap' slots := by
  match slots with
  | [] => rfl
  | none :: rest => exact operandTexts_respects rest h
  | some child :: rest =>
    rw [operandTexts, operandTexts, text_respects child h, operandTexts_respects rest h]

end

theorem seat_respects (tree : Tree) : tree.seat.Respects := by
  cases tree with
  | node body slots => exact fun heap heap' h => text_respects (.node body slots) h

end Tree
end ObjectNavigation
