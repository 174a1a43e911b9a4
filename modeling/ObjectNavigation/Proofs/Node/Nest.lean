import ObjectNavigation.Proofs.Builder.Branch
import ObjectNavigation.Proofs.Node.Standard

/-!
Nests of nodes of one kind. A nest is a node with nodes of its kind in its slots, and so on; the
operands are what the innermost of these hold, in order. Where the kind flattens, closing the nodes,
each before its parent, leaves one node with all operands (`Tree.flattened`).
-/

namespace ObjectNavigation

theorem Body.eq_arithmetic_of_kind {body : Body} {op : Operation}
    (standard : body.isStandard = true) (h : body.kind = op.kind) : body = .arithmetic op := by
  cases body with
  | arithmetic other => cases op <;> cases other <;> first | rfl | cases h
  | host host => cases standard
  | _ => cases op <;> cases h

namespace Tree

mutual

/-- The tree with the slots of every node of the nest in place of it. -/
def flattened (kind : Kind) : Tree → Tree
  | node body slots => node body (if body.kind = kind then flattenedSlots kind slots else slots)

def flattenedSlots (kind : Kind) : List (Option Tree) → List (Option Tree)
  | [] => []
  | none :: rest => none :: flattenedSlots kind rest
  | some child :: rest => (child.flattened kind).spread kind ++ flattenedSlots kind rest

end

/-- The operands of a nest; a tree of another kind is one itself. -/
def operands (kind : Kind) (tree : Tree) : List (Option Tree) :=
  (tree.flattened kind).spread kind

mutual

/-- No node of the nest is without slots. -/
def nestFilled (kind : Kind) : Tree → Bool
  | node body slots => body.kind ≠ kind || (!slots.isEmpty && nestsFilled kind slots)

def nestsFilled (kind : Kind) : List (Option Tree) → Bool
  | [] => true
  | none :: rest => nestsFilled kind rest
  | some child :: rest => child.nestFilled kind && nestsFilled kind rest

end

def lacks (kind : Kind) (slots : List (Option Tree)) : Bool :=
  slots.all fun slot => slot.all fun child => child.kind ≠ kind

mutual

/-- In the nest only the first slots of nodes hold nodes of the kind. -/
def leftNested (kind : Kind) : Tree → Bool
  | node body slots => body.kind ≠ kind || slotsLeftNested kind slots

def slotsLeftNested (kind : Kind) : List (Option Tree) → Bool
  | [] => true
  | none :: rest => lacks kind rest
  | some first :: rest => first.leftNested kind && lacks kind rest

end

variable {kind : Kind}

@[simp] theorem kind_flattened (tree : Tree) : (tree.flattened kind).kind = tree.kind := by
  cases tree
  rfl

theorem flattened_of_ne {tree : Tree} (h : tree.kind ≠ kind) : tree.flattened kind = tree := by
  obtain ⟨body, slots⟩ := tree
  have hbody : body.kind ≠ kind := h
  rw [flattened, if_neg hbody]

theorem operands_of_ne {tree : Tree} (h : tree.kind ≠ kind) : tree.operands kind = [some tree] := by
  rw [operands, flattened_of_ne h, spread, if_neg h]

theorem operands_of_eq {body : Body} {slots : List (Option Tree)} (h : body.kind = kind) :
    (Tree.node body slots).operands kind = flattenedSlots kind slots := by
  have hkind : ((Tree.node body slots).flattened kind).kind = kind := (kind_flattened _).trans h
  rw [operands, spread, if_pos hkind, flattened, if_pos h]
  rfl

theorem flattened_of_eq {body : Body} {slots : List (Option Tree)} (h : body.kind = kind) :
    (Tree.node body slots).flattened kind =
      .node body ((Tree.node body slots).operands kind) := by
  rw [operands_of_eq h, flattened, if_pos h]

theorem flattenedSlots_cons (child : Tree) (rest : List (Option Tree)) :
    flattenedSlots kind (some child :: rest) = child.operands kind ++ flattenedSlots kind rest := by
  rw [flattenedSlots, operands]

theorem flattenedSlots_of_lacks {slots : List (Option Tree)} (h : lacks kind slots = true) :
    flattenedSlots kind slots = slots := by
  induction slots with
  | nil => rfl
  | cons slot rest ih =>
    rw [lacks, List.all_cons, Bool.and_eq_true] at h
    cases slot with
    | none => rw [flattenedSlots, ih h.2]
    | some child =>
      have hchild : child.kind ≠ kind := by simpa using h.1
      rw [flattenedSlots_cons, operands_of_ne hchild, ih h.2, List.singleton_append]

theorem all_of_mem_slots {p : Body → Bool} {slots : List (Option Tree)}
    (h : slotsAll p slots = true) {operand : Tree} (hoperand : some operand ∈ slots) :
    operand.all p = true := by
  refine of_mem_slots (·.all p = true) (slotsAll p · = true) (fun _ => id) ?_ h hoperand
  intro child rest hslots
  rwa [slotsAll, Bool.and_eq_true] at hslots

theorem slotsAll_spread {p : Body → Bool} {tree : Tree} (h : tree.all p = true) (kind : Kind) :
    slotsAll p (tree.spread kind) = true := by
  rw [spread]
  split
  next =>
    obtain ⟨body, slots⟩ := tree
    rw [all, Bool.and_eq_true] at h
    exact h.2
  next => rw [slotsAll, h, slotsAll, Bool.and_self]

mutual

theorem all_flattened {p : Body → Bool} {tree : Tree} (h : tree.all p = true) (kind : Kind) :
    (tree.flattened kind).all p = true := by
  match tree with
  | .node body slots =>
    rw [all, Bool.and_eq_true] at h
    rw [flattened, all, h.1, Bool.true_and]
    split
    next => exact slotsAll_flattened h.2 kind
    next => exact h.2

theorem slotsAll_flattened {p : Body → Bool} {slots : List (Option Tree)}
    (h : slotsAll p slots = true) (kind : Kind) :
    slotsAll p (flattenedSlots kind slots) = true := by
  match slots with
  | [] => rfl
  | none :: rest =>
    have hrest : slotsAll p rest = true := h
    exact slotsAll_flattened hrest kind
  | some child :: rest =>
    rw [slotsAll, Bool.and_eq_true] at h
    rw [flattenedSlots, slotsAll_append, slotsAll_spread (all_flattened h.1 kind) kind,
      slotsAll_flattened h.2 kind, Bool.and_self]

end

theorem slotsAll_operands {p : Body → Bool} {tree : Tree} (h : tree.all p = true) (kind : Kind) :
    slotsAll p (tree.operands kind) = true :=
  slotsAll_spread (all_flattened h kind) kind

mutual

theorem operands_ne_nil {tree : Tree} (filled : tree.nestFilled kind = true) :
    tree.operands kind ≠ [] := by
  match tree with
  | .node body slots =>
    by_cases h : body.kind = kind
    · obtain ⟨hne, hslots⟩ : slots ≠ [] ∧ nestsFilled kind slots = true := by
        simpa [nestFilled, h] using filled
      rw [operands_of_eq h]
      exact flattenedSlots_ne_nil hne hslots
    · have htree : (Tree.node body slots).kind ≠ kind := h
      rw [operands_of_ne htree]
      exact List.cons_ne_nil _ _

theorem flattenedSlots_ne_nil {slots : List (Option Tree)} (hne : slots ≠ [])
    (filled : nestsFilled kind slots = true) : flattenedSlots kind slots ≠ [] := by
  match slots with
  | [] => exact absurd rfl hne
  | none :: rest => exact List.cons_ne_nil _ _
  | some child :: rest =>
    rw [nestsFilled, Bool.and_eq_true] at filled
    rw [flattenedSlots_cons]
    exact List.append_ne_nil_of_left_ne_nil (operands_ne_nil filled.1) _

end

end Tree
end ObjectNavigation
