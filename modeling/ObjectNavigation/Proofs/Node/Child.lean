import ObjectNavigation.Node.Tree

/-!
Nodes of a tree by way of their parents. `Tree.child?` gives the child in a slot together with its
name, and what holds of a node if it holds of its children holds of all nodes
(`Tree.child_induction`). `Tree.Sub` relates the names of a tree to the nodes below its root; these
are the places of the tree, so that a name belongs to one node only.
-/

namespace ObjectNavigation
namespace Tree

/-- The child in a slot of a node whose first descendant is `next`, with its name. -/
def child? (next : NodeId) : List (Option Tree) → Nat → Option (NodeId × Tree)
  | [], _ => none
  | none :: _, 0 => none
  | some first :: _, 0 => some (next, first)
  | none :: rest, index + 1 => child? next rest index
  | some first :: rest, index + 1 => child? (next + first.size) rest index

/-- A child has the name after those of the nodes in the slots before. -/
theorem child?_eq (next : NodeId) (slots : List (Option Tree)) (index : Nat) :
    child? next slots index =
      slots[index]?.join.map fun child => (next + sizeSlots (slots.take index), child) := by
  induction slots generalizing next index with
  | nil => simp [child?]
  | cons first rest ih =>
    cases first <;> cases index
    case none.zero | some.zero => rfl
    case none.succ index => exact ih next index
    case some.succ first index =>
      rw [child?, ih, List.getElem?_cons_succ, List.take_succ_cons, sizeSlots, Nat.add_assoc]

/-- What goes through the slots as `child?` does goes by what `child?` finds. -/
theorem pick_eq {α : Type} (pick : NodeId → List (Option Tree) → Nat → α)
    (found : Option (NodeId × Tree) → α)
    (nil : ∀ next index, pick next [] index = found none)
    (empty : ∀ next rest, pick next (none :: rest) 0 = found none)
    (filled : ∀ next first rest, pick next (some first :: rest) 0 = found (some (next, first)))
    (afterEmpty : ∀ next rest index, pick next (none :: rest) (index + 1) = pick next rest index)
    (afterFilled : ∀ next first rest index,
      pick next (some first :: rest) (index + 1) = pick (next + first.size) rest index)
    (next : NodeId) (slots : List (Option Tree)) (index : Nat) :
    pick next slots index = found (child? next slots index) := by
  induction slots generalizing next index with
  | nil => rw [nil, child?]
  | cons first rest ih =>
    cases first <;> cases index
    case none.zero => exact empty next rest
    case some.zero first => exact filled next first rest
    case none.succ index => exact (afterEmpty next rest index).trans (ih next index)
    case some.succ first index =>
      exact (afterFilled next first rest index).trans (ih (next + first.size) index)

theorem slot_of_child? {next : NodeId} {slots : List (Option Tree)} {index : Nat}
    {entry : NodeId × Tree} (h : entry ∈ child? next slots index) :
    slots[index]?.join = some entry.2 := by
  rw [child?_eq] at h
  obtain ⟨child, hslot, rfl⟩ := Option.map_eq_some_iff.1 h
  exact hslot

/-- The child in a slot is the same whatever the nodes are named. -/
theorem exists_mem_child? {next : NodeId} {slots : List (Option Tree)} {index : Nat}
    {entry : NodeId × Tree} (h : entry ∈ child? next slots index) (other : NodeId) :
    ∃ renamed ∈ child? other slots index, renamed.2 = entry.2 := by
  refine ⟨(other + sizeSlots (slots.take index), entry.2), ?_, rfl⟩
  rw [child?_eq, slot_of_child? h]
  rfl

/-- What slots have only together, each child in them has. -/
theorem of_mem_slots (holds : Tree → Prop) (slotsHold : List (Option Tree) → Prop)
    (hnone : ∀ rest, slotsHold (none :: rest) → slotsHold rest)
    (hsome : ∀ child rest, slotsHold (some child :: rest) → holds child ∧ slotsHold rest)
    {slots : List (Option Tree)} (hslots : slotsHold slots) {child : Tree}
    (hchild : some child ∈ slots) : holds child := by
  induction slots with
  | nil => cases hchild
  | cons slot rest ih =>
    cases slot with
    | none => exact ih (hnone rest hslots) (by simpa using hchild)
    | some first =>
      obtain ⟨hfirst, hrest⟩ := hsome first rest hslots
      rcases List.mem_cons.1 hchild with heq | hmem
      · cases heq
        exact hfirst
      · exact ih hrest hmem

theorem of_child? (holds : Tree → Prop) (slotsHold : List (Option Tree) → Prop)
    (hnone : ∀ rest, slotsHold (none :: rest) → slotsHold rest)
    (hsome : ∀ child rest, slotsHold (some child :: rest) → holds child ∧ slotsHold rest)
    {next : NodeId} {slots : List (Option Tree)} {index : Nat} {entry : NodeId × Tree}
    (hslots : slotsHold slots) (h : entry ∈ child? next slots index) : holds entry.2 :=
  of_mem_slots holds slotsHold hnone hsome hslots
    (List.mem_of_getElem? (Option.join_eq_some_iff.1 (slot_of_child? h)))

theorem exists_child? (slotsHold : List (Option Tree) → Prop)
    (hnone : ∀ rest, ¬ slotsHold (none :: rest))
    (hsome : ∀ child rest, slotsHold (some child :: rest) → slotsHold rest) (next : NodeId)
    {slots : List (Option Tree)} {index : Nat} (hslots : slotsHold slots)
    (h : index < slots.length) : ∃ entry, entry ∈ child? next slots index := by
  induction slots generalizing next index with
  | nil => cases h
  | cons slot rest ih =>
    cases slot with
    | none => exact absurd hslots (hnone rest)
    | some first =>
      cases index with
      | zero => exact ⟨(next, first), rfl⟩
      | succ index => exact ih _ (hsome first rest hslots) (Nat.lt_of_succ_lt_succ h)

theorem sizeSlots_append (slots others : List (Option Tree)) :
    sizeSlots (slots ++ others) = sizeSlots slots + sizeSlots others := by
  induction slots with
  | nil => exact (Nat.zero_add _).symm
  | cons slot rest ih =>
    cases slot with
    | none => exact ih
    | some child => rw [List.cons_append, sizeSlots, sizeSlots, ih, Nat.add_assoc]

theorem sizeSlots_take_le (slots : List (Option Tree)) (index : Nat) :
    sizeSlots (slots.take index) ≤ sizeSlots slots := by
  have hsplit := sizeSlots_append (slots.take index) (slots.drop index)
  rw [List.take_append_drop] at hsplit
  exact hsplit ▸ Nat.le_add_right _ _

theorem sizeSlots_take_mono (slots : List (Option Tree)) {index index' : Nat}
    (h : index ≤ index') : sizeSlots (slots.take index) ≤ sizeSlots (slots.take index') := by
  have hle := sizeSlots_take_le (slots.take index') index
  rwa [List.take_take, Nat.min_eq_left h] at hle

/-- The names of a child and of the nodes below it lie between those of its neighbours. -/
theorem child?_bounds {next : NodeId} {slots : List (Option Tree)} {index : Nat}
    {entry : NodeId × Tree} (h : entry ∈ child? next slots index) :
    entry.1 = next + sizeSlots (slots.take index) ∧
      entry.1 + entry.2.size = next + sizeSlots (slots.take (index + 1)) := by
  rw [child?_eq] at h
  obtain ⟨child, hslot, rfl⟩ := Option.map_eq_some_iff.1 h
  rw [Option.join_eq_some_iff] at hslot
  refine ⟨rfl, ?_⟩
  rw [List.take_add_one, hslot, sizeSlots_append, ← Nat.add_assoc]
  rfl

theorem all_range_child? (p : Tree → Bool) (next : NodeId) (slots : List (Option Tree)) :
    ((List.range slots.length).all fun index =>
      (child? next slots index).any fun entry => p entry.2) = slots.all fun slot => slot.any p := by
  induction slots generalizing next with
  | nil => rfl
  | cons first rest ih =>
    rw [List.length_cons, List.range_succ_eq_map, List.all_cons, List.all_map, List.all_cons]
    cases first with
    | none => rfl
    | some first =>
      rw [← ih (next + first.size)]
      rfl

theorem mapM_range_slots {m : Type → Type} [Monad m] [LawfulMonad m] {α : Type}
    (slots : List (Option Tree)) (act : Option Tree → m α) :
    ((List.range slots.length).mapM fun index => act slots[index]?.join) = slots.mapM act := by
  have hmap : ((List.range slots.length).map fun index => slots[index]?.join) = slots := by
    apply List.ext_getElem
    · simp
    · intro index hlt hlt'
      simp [hlt']
  calc ((List.range slots.length).mapM fun index => act slots[index]?.join)
      = ((List.range slots.length).map fun index => slots[index]?.join).mapM act :=
        List.mapM_map.symm
    _ = slots.mapM act := by rw [hmap]

section Induction
variable {motive : NodeId → Tree → Prop}

mutual

theorem child_induction
    (node : ∀ id body slots,
      (∀ index, ∀ entry ∈ child? (id + 1) slots index, motive entry.1 entry.2) →
        motive id (.node body slots))
    (id : NodeId) (tree : Tree) : motive id tree := by
  match tree with
  | .node body slots =>
    exact node id body slots fun index => child_induction_slot node (id + 1) slots index

theorem child_induction_slot
    (node : ∀ id body slots,
      (∀ index, ∀ entry ∈ child? (id + 1) slots index, motive entry.1 entry.2) →
        motive id (.node body slots))
    (next : NodeId) (slots : List (Option Tree)) (index : Nat) :
    ∀ entry ∈ child? next slots index, motive entry.1 entry.2 := by
  match slots, index with
  | [], _ => simp [child?]
  | none :: _, 0 => simp [child?]
  | some first :: _, 0 =>
    rintro entry ⟨⟩
    exact child_induction node next first
  | none :: rest, index + 1 => exact child_induction_slot node next rest index
  | some first :: rest, index + 1 =>
    exact child_induction_slot node (next + first.size) rest index

end

end Induction

/-- The node `sub` with this name is below the root of `tree`, or is the root. -/
inductive Sub (tree : Tree) : NodeId → Tree → Prop where
  | root : Sub tree 0 tree
  | child {id : NodeId} {body : Body} {slots : List (Option Tree)} {index : Nat}
      {entry : NodeId × Tree} (parent : Sub tree id (.node body slots))
      (h : entry ∈ child? (id + 1) slots index) : Sub tree entry.1 entry.2

/-! ### Places -/

mutual

theorem ids_placesFrom (parent : Option (NodeId × Nat)) (sibling : Option NodeId) (id : NodeId)
    (tree : Tree) :
    (tree.placesFrom parent sibling id).map Place.id = List.range' id tree.size := by
  match tree with
  | .node body slots =>
    rw [placesFrom, List.map_cons, ids_slotPlaces id 0 (id + 1) slots, size, Nat.add_comm 1]
    rfl

theorem ids_slotPlaces (parent : NodeId) (slot : Nat) (next : NodeId)
    (slots : List (Option Tree)) :
    (slotPlaces parent slot next slots).map Place.id = List.range' next (sizeSlots slots) := by
  match slots with
  | [] => rfl
  | none :: rest => exact ids_slotPlaces parent (slot + 1) next rest
  | some first :: rest =>
    rw [slotPlaces, List.map_append, ids_placesFrom, ids_slotPlaces, sizeSlots]
    exact List.range'_append_1

end

theorem id_of_getElem? {tree : Tree} {id : NodeId} {place : Place}
    (h : tree.places[id]? = some place) : place.id = id := by
  have hmap : (tree.places.map Place.id)[id]? = some place.id := by
    rw [List.getElem?_map, h]
    rfl
  obtain ⟨hlt, _⟩ := List.getElem?_eq_some_iff.1 h
  rw [places, ids_placesFrom, List.getElem?_range' (by simpa [places, length_placesFrom] using hlt)]
    at hmap
  simpa using hmap.symm

theorem lookUp_eq_ok_iff {tree : Tree} {id : NodeId} {place : Place} :
    tree.lookUp id = .ok place ↔ tree.places[id]? = some place := by
  rw [lookUp, place?]
  cases tree.places[id]? <;> simp

theorem exists_lookUp {tree : Tree} {id : NodeId} (h : id < tree.size) :
    ∃ place, tree.lookUp id = .ok place := by
  obtain ⟨place, hplace⟩ := Option.isSome_iff_exists.1 ((isSome_place?_iff tree id).2 h)
  exact ⟨place, lookUp_eq_ok_iff.2 hplace⟩

theorem lookUp_of_mem {tree : Tree} {place : Place} (h : place ∈ tree.places) :
    tree.lookUp place.id = .ok place := by
  obtain ⟨id, hid⟩ := List.mem_iff_getElem?.1 h
  rw [lookUp_eq_ok_iff, id_of_getElem? hid, hid]

theorem placesFrom_subset_slotPlaces {next : NodeId} {slots : List (Option Tree)} {index : Nat}
    {entry : NodeId × Tree} (h : entry ∈ child? next slots index) (parent : NodeId) (slot : Nat) :
    ∃ above sibling, entry.2.placesFrom above sibling entry.1 ⊆
      slotPlaces parent slot next slots := by
  induction slots generalizing next index slot with
  | nil => simp [child?] at h
  | cons first rest ih =>
    cases first with
    | none =>
      cases index with
      | zero => cases h
      | succ index => exact ih h (slot + 1)
    | some first =>
      cases index with
      | zero =>
        cases h
        exact ⟨_, _, List.subset_append_left _ _⟩
      | succ index =>
        obtain ⟨above, sibling, hsub⟩ := ih h (slot + 1)
        exact ⟨above, sibling, List.Subset.trans hsub (List.subset_append_right _ _)⟩

theorem mem_child_of_mem_slotPlaces {next : NodeId} {slots : List (Option Tree)} {parent : NodeId}
    {slot : Nat} {place : Place} (h : place ∈ slotPlaces parent slot next slots) :
    ∃ index, ∃ entry ∈ child? next slots index, ∃ above sibling,
      place ∈ entry.2.placesFrom above sibling entry.1 := by
  induction slots generalizing next slot with
  | nil => cases h
  | cons first rest ih =>
    cases first with
    | none =>
      obtain ⟨index, hindex⟩ := ih h
      exact ⟨index + 1, hindex⟩
    | some first =>
      rcases List.mem_append.1 h with h | h
      · exact ⟨0, (next, first), rfl, _, _, h⟩
      · obtain ⟨index, hindex⟩ := ih h
        exact ⟨index + 1, hindex⟩

namespace Sub
variable {tree sub : Tree} {id : NodeId}

theorem exists_of_sub (hsub : tree.Sub id sub) {inner : NodeId} {other : Tree}
    (hother : sub.Sub inner other) : ∃ id, tree.Sub id other := by
  induction hother with
  | root => exact ⟨id, hsub⟩
  | child _ hentry ih =>
    obtain ⟨above, habove⟩ := ih
    obtain ⟨renamed, hrenamed, heq⟩ := exists_mem_child? hentry (above + 1)
    exact ⟨renamed.1, heq ▸ habove.child hrenamed⟩

theorem of_mem_placesFrom {parent : Option (NodeId × Nat)} {sibling : Option NodeId} {place : Place}
    (h : place ∈ sub.placesFrom parent sibling id) (hsub : tree.Sub id sub) :
    tree.Sub place.id place.subtree := by
  induction id, sub using child_induction generalizing parent sibling with
  | node id body slots ih =>
    rw [placesFrom] at h
    rcases List.mem_cons.1 h with rfl | h
    · exact hsub
    · obtain ⟨index, entry, hentry, above, beside, hplace⟩ := mem_child_of_mem_slotPlaces h
      exact ih index entry hentry hplace (hsub.child hentry)

theorem of_lookUp {place : Place} (h : tree.lookUp id = .ok place) : tree.Sub id place.subtree := by
  have hget := lookUp_eq_ok_iff.1 h
  have hsub := of_mem_placesFrom (List.mem_of_getElem? hget) .root
  rwa [id_of_getElem? hget] at hsub

theorem placesFrom_subset (hsub : tree.Sub id sub) :
    ∃ parent sibling, sub.placesFrom parent sibling id ⊆ tree.places := by
  induction hsub with
  | root => exact ⟨none, none, List.Subset.refl _⟩
  | @child id body slots index entry _ hentry ih =>
    obtain ⟨parent, sibling, hsubset⟩ := ih
    obtain ⟨above, beside, hchild⟩ := placesFrom_subset_slotPlaces hentry id 0
    refine ⟨above, beside, fun place hplace => hsubset ?_⟩
    rw [placesFrom]
    exact List.mem_cons_of_mem _ (hchild hplace)

theorem unique {other : Tree} (hsub : tree.Sub id sub) (hother : tree.Sub id other) :
    sub = other := by
  have hlookUp : ∀ {sub : Tree}, tree.Sub id sub →
      ∃ place, tree.lookUp id = .ok place ∧ place.subtree = sub := by
    intro sub hsub
    obtain ⟨parent, sibling, hsubset⟩ := hsub.placesFrom_subset
    cases sub with
    | node body slots =>
      have hmem := hsubset (by rw [placesFrom]; exact List.mem_cons_self)
      exact ⟨_, lookUp_of_mem hmem, rfl⟩
  obtain ⟨place, hplace, rfl⟩ := hlookUp hsub
  obtain ⟨place', hplace', rfl⟩ := hlookUp hother
  rw [hplace] at hplace'
  cases hplace'
  rfl

theorem lt_size (hsub : tree.Sub id sub) : id < tree.size := by
  obtain ⟨parent, sibling, hsubset⟩ := hsub.placesFrom_subset
  cases sub with
  | node body slots =>
    have hmem := hsubset (by rw [placesFrom]; exact List.mem_cons_self)
    have hplace := lookUp_eq_ok_iff.1 (lookUp_of_mem hmem)
    exact (isSome_place?_iff tree id).1 (Option.isSome_of_mem hplace)

end Sub
end Tree
end ObjectNavigation
