import Mathlib.Data.List.ReduceOption
import ObjectNavigation.Proofs.Engine.Constancy
import ObjectNavigation.Proofs.Node.Nest

/-!
Trees without chains in chains. `Tree.spliced` puts the links of every chain that is in a slot of a
chain in place of it, and so none is left (`Tree.unnested_spliced`). Nothing changes in the texts of
nodes, nor in which nodes are constant. A node that is left has another name in the spliced tree;
`Tree.newNames` lists these names in the order of the old ones.
-/

namespace ObjectNavigation

theorem intercalate_cons_splice (separator : String) {inner : List String} (h : inner ≠ [])
    (back : List String) :
    separator.intercalate (separator.intercalate inner :: back) =
      separator.intercalate (inner ++ back) := by
  induction inner with
  | nil => exact absurd rfl h
  | cons first rest ih =>
    cases rest with
    | nil => rw [String.intercalate_singleton, List.singleton_append]
    | cons second rest =>
      have hrest := ih (List.cons_ne_nil second rest)
      rw [String.intercalate_cons_cons, String.intercalate_cons_append, hrest]
      simp only [List.cons_append, String.intercalate_cons_cons]

/-- What joins to one text may be joined along with the others. -/
theorem intercalate_splice (separator : String) (front : List String) {inner : List String}
    (h : inner ≠ []) (back : List String) :
    separator.intercalate (front ++ separator.intercalate inner :: back) =
      separator.intercalate (front ++ (inner ++ back)) := by
  induction front with
  | nil => exact intercalate_cons_splice separator h back
  | cons first rest ih =>
    have hne : rest ++ separator.intercalate inner :: back ≠ [] := by simp
    have hne' : rest ++ (inner ++ back) ≠ [] := by simp [h]
    rw [List.cons_append, List.cons_append, String.intercalate_cons_of_ne_nil hne,
      String.intercalate_cons_of_ne_nil hne', ih]

theorem index_unique_of_nodup {α : Type} {items : List (Option α)}
    (h : items.reduceOption.Nodup) {index other : Nat} {item : α}
    (hindex : items[index]? = some (some item)) (hother : items[other]? = some (some item)) :
    index = other := by
  induction items generalizing index other with
  | nil => cases hindex
  | cons first rest ih =>
    have hrest : rest.reduceOption.Nodup := by
      cases first with
      | none => exact h
      | some first => exact (List.nodup_cons.1 h).2
    have hmem : ∀ place : Nat, rest[place]? = some (some item) → first ≠ some item := by
      rintro place hplace rfl
      exact (List.nodup_cons.1 h).1 (List.reduceOption_mem_iff.2 (List.mem_of_getElem? hplace))
    cases index <;> cases other
    case zero.zero => rfl
    case zero.succ other => exact absurd (Option.some.inj hindex) (hmem other hother)
    case succ.zero index => exact absurd (Option.some.inj hother) (hmem index hindex)
    case succ.succ index other => exact congrArg Nat.succ (ih hrest hindex hother)

theorem Body.eq_chain_of_kind {body : Body} (standard : body.isStandard = true)
    (h : body.kind = .chain) : body = .chain := by
  cases body with
  | chain => rfl
  | arithmetic op => cases op <;> cases h
  | host host => cases standard
  | _ => cases h

namespace Tree

/-- What stands for a tree in a slot: in a chain the links of a chain stand for it. -/
def placed (inChain : Bool) (tree : Tree) : List (Option Tree) :=
  if inChain then tree.spread .chain else [some tree]

mutual

/-- The tree with the links of every chain in a chain in place of it. -/
def spliced : Tree → Tree
  | node body slots => node body (splicedSlots (body.kind = .chain) slots)

def splicedSlots (inChain : Bool) : List (Option Tree) → List (Option Tree)
  | [] => []
  | none :: rest => none :: splicedSlots inChain rest
  | some child :: rest => child.spliced.placed inChain ++ splicedSlots inChain rest

end

mutual

/-- No chain is empty, and none has an empty slot. -/
def chainsFilled : Tree → Bool
  | node body slots =>
    (body.kind ≠ .chain || (!slots.isEmpty && slots.all Option.isSome)) && slotsFilled slots

def slotsFilled : List (Option Tree) → Bool
  | [] => true
  | none :: rest => slotsFilled rest
  | some child :: rest => child.chainsFilled && slotsFilled rest

end

mutual

/-- No chain has a chain in a slot. -/
def unnested : Tree → Bool
  | node body slots => slotsUnnested (body.kind = .chain) slots

def slotsUnnested (inChain : Bool) : List (Option Tree) → Bool
  | [] => true
  | none :: rest => slotsUnnested inChain rest
  | some child :: rest =>
    (!inChain || child.kind ≠ .chain) && child.unnested && slotsUnnested inChain rest

end

@[simp] theorem kind_spliced (tree : Tree) : tree.spliced.kind = tree.kind := by
  cases tree
  rfl

theorem placed_of_not {inChain : Bool} {tree : Tree} (h : ¬(inChain = true ∧ tree.kind = .chain)) :
    tree.placed inChain = [some tree] := by
  cases inChain with
  | false => rfl
  | true => exact if_neg fun hkind => h ⟨rfl, hkind⟩

theorem placed_of_chain {body : Body} {slots : List (Option Tree)} (h : body.kind = .chain) :
    (Tree.node body slots).spliced.placed true = splicedSlots true slots := by
  have hkind : (Tree.node body slots).spliced.kind = .chain := (kind_spliced _).trans h
  rw [placed, if_pos rfl, spread, if_pos hkind, spliced, h]
  rfl

theorem slotsUnnested_append (inChain : Bool) (slots others : List (Option Tree)) :
    slotsUnnested inChain (slots ++ others) =
      (slotsUnnested inChain slots && slotsUnnested inChain others) := by
  induction slots with
  | nil => rfl
  | cons slot rest ih =>
    cases slot with
    | none => exact ih
    | some child => simp only [List.cons_append, slotsUnnested, ih, Bool.and_assoc]

mutual

theorem unnested_spliced (tree : Tree) : tree.spliced.unnested = true := by
  match tree with
  | .node body slots => exact slotsUnnested_splicedSlots (body.kind = .chain) slots

theorem slotsUnnested_splicedSlots (inChain : Bool) (slots : List (Option Tree)) :
    slotsUnnested inChain (splicedSlots inChain slots) = true := by
  match slots with
  | [] => rfl
  | none :: rest => exact slotsUnnested_splicedSlots inChain rest
  | some (.node body slots) :: rest =>
    rw [splicedSlots, slotsUnnested_append, slotsUnnested_splicedSlots inChain rest, Bool.and_true]
    by_cases h : inChain = true ∧ body.kind = .chain
    · obtain ⟨rfl, hkind⟩ := h
      rw [placed_of_chain hkind]
      exact slotsUnnested_splicedSlots true slots
    · have hkind : ¬(inChain = true ∧ (Tree.node body slots).spliced.kind = .chain) := by
        rwa [kind_spliced]
      rw [placed_of_not hkind, slotsUnnested, unnested_spliced, slotsUnnested]
      cases inChain with
      | false => rfl
      | true => simpa using hkind

end

theorem filled_child {next : NodeId} {slots : List (Option Tree)} {index : Nat}
    {entry : NodeId × Tree} (filled : slotsFilled slots = true)
    (h : entry ∈ child? next slots index) : entry.2.chainsFilled = true := by
  refine of_child? (·.chainsFilled = true) (slotsFilled · = true) (fun _ => id) ?_ filled h
  intro child rest hslots
  rwa [slotsFilled, Bool.and_eq_true] at hslots

/-! ### Filled slots -/

mutual

/-- In the place of a tree there is a tree at least, and no empty slot. -/
theorem placed_filled {tree : Tree} (filled : tree.chainsFilled = true) (inChain : Bool) :
    tree.spliced.placed inChain ≠ [] ∧
      (tree.spliced.placed inChain).all Option.isSome = true := by
  match tree with
  | .node body slots =>
    by_cases h : inChain = true ∧ body.kind = .chain
    · obtain ⟨rfl, hkind⟩ := h
      rw [chainsFilled, Bool.and_eq_true] at filled
      rw [placed_of_chain hkind]
      have hslots : slots.isEmpty = false ∧ slots.all Option.isSome = true := by
        simpa [hkind] using filled.1
      obtain ⟨hne, hall⟩ := splicedSlots_filled filled.2 hslots.2
      exact ⟨hne (by simpa using hslots.1), hall⟩
    · rw [placed_of_not (by rwa [kind_spliced])]
      exact ⟨List.cons_ne_nil _ _, rfl⟩

theorem splicedSlots_filled {slots : List (Option Tree)} (filled : slotsFilled slots = true)
    (hall : slots.all Option.isSome = true) :
    (slots ≠ [] → splicedSlots true slots ≠ []) ∧
      (splicedSlots true slots).all Option.isSome = true := by
  match slots with
  | [] => exact ⟨id, rfl⟩
  | none :: rest => cases hall
  | some child :: rest =>
    rw [slotsFilled, Bool.and_eq_true] at filled
    obtain ⟨hne, hchild⟩ := placed_filled filled.1 true
    rw [splicedSlots, List.all_append, hchild, (splicedSlots_filled filled.2 hall).2]
    exact ⟨fun _ => List.append_ne_nil_of_left_ne_nil hne _, rfl⟩

end

/-! ### Texts -/

theorem operandTexts_append (heap : Heap) (slots others : List (Option Tree)) :
    operandTexts heap (slots ++ others) = operandTexts heap slots ++ operandTexts heap others := by
  induction slots with
  | nil => rfl
  | cons slot rest ih =>
    cases slot with
    | none => exact ih
    | some child => rw [List.cons_append, operandTexts, ih, operandTexts, List.cons_append]

theorem operandTexts_ne_nil (heap : Heap) {slots : List (Option Tree)} (hne : slots ≠ [])
    (hall : slots.all Option.isSome = true) : operandTexts heap slots ≠ [] := by
  match slots with
  | [] => exact absurd rfl hne
  | none :: rest => cases hall
  | some child :: rest => exact List.cons_ne_nil _ _

theorem slotsAll_placed {p : Body → Bool} {tree : Tree} (h : tree.all p = true) (inChain : Bool) :
    slotsAll p (tree.placed inChain) = true := by
  cases inChain with
  | true => exact slotsAll_spread h .chain
  | false => rw [placed_of_not (by simp), slotsAll, h, slotsAll, Bool.and_self]

mutual

theorem all_spliced {p : Body → Bool} {tree : Tree} (h : tree.all p = true) :
    tree.spliced.all p = true := by
  match tree with
  | .node body slots =>
    rw [all, Bool.and_eq_true] at h
    rw [spliced, all, h.1, Bool.true_and]
    exact slotsAll_spliced h.2 _

theorem slotsAll_spliced {p : Body → Bool} {slots : List (Option Tree)}
    (h : slotsAll p slots = true) (inChain : Bool) :
    slotsAll p (splicedSlots inChain slots) = true := by
  match slots with
  | [] => rfl
  | none :: rest =>
    have hrest : slotsAll p rest = true := h
    exact slotsAll_spliced hrest inChain
  | some child :: rest =>
    rw [slotsAll, Bool.and_eq_true] at h
    rw [splicedSlots, slotsAll_append, slotsAll_placed (all_spliced h.1) inChain,
      slotsAll_spliced h.2 inChain, Bool.and_self]

end

mutual

theorem text_spliced {tree : Tree} (standard : tree.all Body.isStandard = true)
    (filled : tree.chainsFilled = true) (heap : Heap) :
    tree.spliced.text heap = tree.text heap := by
  match tree with
  | .node body slots =>
    rw [all, Bool.and_eq_true] at standard
    rw [chainsFilled, Bool.and_eq_true] at filled
    rw [spliced, text, text]
    by_cases hkind : body.kind = .chain
    · cases Body.eq_chain_of_kind standard.1 hkind
      exact intercalate_spliced standard.2 filled.2 heap []
    · rw [decide_eq_false hkind, operandTexts_spliced standard.2 filled.2 heap]

theorem operandTexts_spliced {slots : List (Option Tree)}
    (standard : slotsAll Body.isStandard slots = true) (filled : slotsFilled slots = true)
    (heap : Heap) :
    operandTexts heap (splicedSlots false slots) = operandTexts heap slots := by
  match slots with
  | [] => rfl
  | none :: rest =>
    have hstandard : slotsAll Body.isStandard rest = true := standard
    have hfilled : slotsFilled rest = true := filled
    exact operandTexts_spliced hstandard hfilled heap
  | some child :: rest =>
    rw [slotsAll, Bool.and_eq_true] at standard
    rw [slotsFilled, Bool.and_eq_true] at filled
    rw [splicedSlots, placed_of_not (by simp), List.singleton_append, operandTexts, operandTexts,
      kind_spliced, text_spliced standard.1 filled.1, operandTexts_spliced standard.2 filled.2]

/-- In a chain the links of a spliced chain have the text of the chain between them. -/
theorem intercalate_spliced {slots : List (Option Tree)}
    (standard : slotsAll Body.isStandard slots = true) (filled : slotsFilled slots = true)
    (heap : Heap) (front : List String) :
    ".".intercalate (front ++ operandTexts heap (splicedSlots true slots)) =
      ".".intercalate (front ++ operandTexts heap slots) := by
  match slots with
  | [] => rfl
  | none :: rest =>
    have hstandard : slotsAll Body.isStandard rest = true := standard
    have hfilled : slotsFilled rest = true := filled
    exact intercalate_spliced hstandard hfilled heap front
  | some child :: rest =>
    rw [slotsAll, Bool.and_eq_true] at standard
    rw [slotsFilled, Bool.and_eq_true] at filled
    have htext := text_spliced standard.1 filled.1 heap
    have hrest := intercalate_spliced standard.2 filled.2 heap
    obtain ⟨hne, hall⟩ := placed_filled filled.1 true
    rw [splicedSlots, operandTexts_append]
    -- The text of a chain is that of its links with the same points between them.
    by_cases hkind : child.kind = .chain
    · obtain ⟨body, slots⟩ := child
      rw [all, Bool.and_eq_true] at standard
      cases Body.eq_chain_of_kind standard.1.1 hkind
      rw [placed_of_chain (rfl : Body.chain.kind = .chain)] at hne hall ⊢
      have hjoin : (Tree.node .chain slots).text heap =
          ".".intercalate (operandTexts heap (splicedSlots true slots)) := htext.symm
      have hlist : operandTexts heap (some (Tree.node .chain slots) :: rest) =
          (Tree.node .chain slots).text heap :: operandTexts heap rest := rfl
      rw [hlist, hjoin, intercalate_splice _ _ (operandTexts_ne_nil heap hne hall),
        ← List.append_assoc, hrest, List.append_assoc]
    · rw [placed_of_not (by simp [hkind]), operandTexts, operandTexts, operandTexts, kind_spliced,
        htext, List.singleton_append]
      have hcons := hrest (front ++ [if child.kind.isOperator then "(" ++ child.text heap ++ ")"
        else child.text heap])
      simpa only [List.append_assoc, List.singleton_append] using hcons

end

/-! ### Constancy -/

theorem length_splicedSlots (slots : List (Option Tree)) :
    (splicedSlots false slots).length = slots.length := by
  induction slots with
  | nil => rfl
  | cons slot rest ih =>
    cases slot with
    | none => rw [splicedSlots, List.length_cons, List.length_cons, ih]
    | some child =>
      rw [splicedSlots, placed_of_not (by simp), List.singleton_append, List.length_cons,
        List.length_cons, ih]

mutual

theorem isConstant_spliced {tree : Tree} (standard : tree.all Body.isStandard = true) :
    tree.spliced.isConstant = tree.isConstant := by
  match tree with
  | .node body slots =>
    rw [all, Bool.and_eq_true] at standard
    have hslots := slotsConstant_spliced standard.2
    have hempty : (splicedSlots false slots).isEmpty = slots.isEmpty := by
      rw [Bool.eq_iff_iff, List.isEmpty_iff_length_eq_zero, List.isEmpty_iff_length_eq_zero,
        length_splicedSlots]
    cases body with
    | host host => cases standard.1
    | arithmetic op =>
      have hkind : decide ((Body.arithmetic op).kind = .chain) = false := by cases op <;> rfl
      simp only [spliced, hkind, isConstant, hslots, hempty]
    | negate => simp [spliced, isConstant, Body.kind, hslots, hempty]
    | list => exact hslots
    | _ => rfl

theorem slotsConstant_spliced {slots : List (Option Tree)}
    (standard : slotsAll Body.isStandard slots = true) :
    slotsConstant (splicedSlots false slots) = slotsConstant slots := by
  match slots with
  | [] => rfl
  | none :: rest => rfl
  | some child :: rest =>
    rw [slotsAll, Bool.and_eq_true] at standard
    rw [splicedSlots, placed_of_not (by simp), List.singleton_append, slotsConstant, slotsConstant,
      isConstant_spliced standard.1, slotsConstant_spliced standard.2]

end

theorem seat_spliced {body : Body} {slots : List (Option Tree)}
    (standard : (Tree.node body slots).all Body.isStandard = true)
    (filled : (Tree.node body slots).chainsFilled = true) (hkind : body.kind ≠ .chain) :
    (Tree.node body (splicedSlots false slots)).seat = (Tree.node body slots).seat := by
  have htext := text_spliced standard filled
  rw [spliced, decide_eq_false hkind] at htext
  simp only [seat, length_splicedSlots, htext]

/-! ### Names -/

mutual

/-- The names of the nodes of a tree once it is spliced, if the first of them is `next`: in the
order of the old names, and none for a chain that is gone. -/
def newNames (inChain : Bool) (next : NodeId) : Tree → List (Option NodeId)
  | node body slots =>
    if inChain ∧ body.kind = .chain then none :: newSlotNames true next slots
    else some next :: newSlotNames (body.kind = .chain) (next + 1) slots

def newSlotNames (inChain : Bool) (next : NodeId) : List (Option Tree) → List (Option NodeId)
  | [] => []
  | none :: rest => newSlotNames inChain next rest
  | some child :: rest =>
    child.newNames inChain next ++
      newSlotNames inChain (next + sizeSlots (child.spliced.placed inChain)) rest

end

mutual

theorem length_newNames (inChain : Bool) (next : NodeId) (tree : Tree) :
    (tree.newNames inChain next).length = tree.size := by
  match tree with
  | .node body slots =>
    rw [newNames, size]
    split
    next => rw [List.length_cons, length_newSlotNames, Nat.add_comm]
    next => rw [List.length_cons, length_newSlotNames, Nat.add_comm]

theorem length_newSlotNames (inChain : Bool) (next : NodeId) (slots : List (Option Tree)) :
    (newSlotNames inChain next slots).length = sizeSlots slots := by
  match slots with
  | [] => rfl
  | none :: rest => exact length_newSlotNames inChain next rest
  | some child :: rest =>
    rw [newSlotNames, sizeSlots, List.length_append, length_newNames, length_newSlotNames]

end

mutual

/-- The new names are those of the spliced tree, in order. -/
theorem reduceOption_newNames (inChain : Bool) (next : NodeId) (tree : Tree) :
    (tree.newNames inChain next).reduceOption =
      List.range' next (sizeSlots (tree.spliced.placed inChain)) := by
  match tree with
  | .node body slots =>
    rw [newNames]
    split
    next h =>
      obtain ⟨rfl, hkind⟩ := h
      rw [placed_of_chain hkind, List.reduceOption_cons_of_none, reduceOption_newSlotNames]
    next h =>
      rw [placed_of_not (by rwa [kind_spliced]), List.reduceOption_cons_of_some,
        reduceOption_newSlotNames, spliced, sizeSlots, size, sizeSlots, Nat.add_zero,
        Nat.add_comm 1, List.range'_succ]

theorem reduceOption_newSlotNames (inChain : Bool) (next : NodeId) (slots : List (Option Tree)) :
    (newSlotNames inChain next slots).reduceOption =
      List.range' next (sizeSlots (splicedSlots inChain slots)) := by
  match slots with
  | [] => rfl
  | none :: rest => exact reduceOption_newSlotNames inChain next rest
  | some child :: rest =>
    rw [newSlotNames, splicedSlots, List.reduceOption_append, reduceOption_newNames,
      reduceOption_newSlotNames, sizeSlots_append, List.range'_append_1]

end

theorem newNames_unique {tree : Tree} {id other name : NodeId}
    (h : (tree.newNames false 0)[id]? = some (some name))
    (hother : (tree.newNames false 0)[other]? = some (some name)) : id = other := by
  apply index_unique_of_nodup _ h hother
  rw [reduceOption_newNames]
  exact List.nodup_range'

end Tree
end ObjectNavigation
