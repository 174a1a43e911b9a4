import ObjectNavigation.Proofs.Node.Child

/-!
The nodes of a tree in their order. Children are named after their parent, only the root is
without a parent, and the parent of a node is the node that has it in the slot it names
(`parent_iff_child`). The dump of a tree is one line for each node, in order, indented by the
number of nodes above it (`dump_eq_lines`).
-/

namespace ObjectNavigation
namespace Tree

theorem places_ids (tree : Tree) : tree.places.map Place.id = List.range tree.size := by
  rw [places, ids_placesFrom, List.range_eq_range']

theorem eq_of_id_eq {tree : Tree} {p q : Place} (hp : p ∈ tree.places) (hq : q ∈ tree.places)
    (hid : p.id = q.id) : p = q := by
  have hlookUp := lookUp_of_mem hp
  rw [hid, lookUp_of_mem hq] at hlookUp
  exact (Except.ok.inj hlookUp).symm

/-! ### Children -/

theorem le_of_mem_childIds {next n : NodeId} {slots : List (Option Tree)}
    (h : some n ∈ childIds next slots) : next ≤ n := by
  induction slots generalizing next with
  | nil => cases h
  | cons slot rest ih =>
    cases slot with
    | none =>
      rcases List.mem_cons.1 h with h | h
      · cases h
      · exact ih h
    | some child =>
      rcases List.mem_cons.1 h with h | h
      · exact Nat.le_of_eq (Option.some.inj h).symm
      · exact Nat.le_trans (Nat.le_add_right next child.size) (ih h)

theorem childIds_of_child? {next : NodeId} {slots : List (Option Tree)} {index : Nat}
    {entry : NodeId × Tree} (h : entry ∈ child? next slots index) :
    (childIds next slots)[index]? = some (some entry.1) := by
  induction slots generalizing next index with
  | nil => simp [child?] at h
  | cons slot rest ih =>
    cases slot <;> cases index
    case none.zero => cases h
    case some.zero =>
      cases h
      rfl
    case none.succ index | some.succ index => exact ih h

mutual

theorem children_of_mem_placesFrom {parent : Option (NodeId × Nat)} {sibling : Option NodeId}
    {id : NodeId} {tree : Tree} {place : Place} (h : place ∈ tree.placesFrom parent sibling id) :
    place.children = childIds (place.id + 1) place.subtree.slots := by
  match tree with
  | .node body slots =>
    rw [placesFrom] at h
    rcases List.mem_cons.1 h with rfl | h
    · rfl
    · exact children_of_mem_slotPlaces h

theorem children_of_mem_slotPlaces {parent : NodeId} {slot : Nat} {next : NodeId}
    {slots : List (Option Tree)} {place : Place} (h : place ∈ slotPlaces parent slot next slots) :
    place.children = childIds (place.id + 1) place.subtree.slots := by
  match slots with
  | [] => cases h
  | none :: rest =>
    rw [slotPlaces] at h
    exact children_of_mem_slotPlaces h
  | some child :: rest =>
    rw [slotPlaces] at h
    rcases List.mem_append.1 h with h | h
    · exact children_of_mem_placesFrom h
    · exact children_of_mem_slotPlaces h

end

theorem lt_of_mem_children {tree : Tree} {place : Place} {child : NodeId}
    (hplace : place ∈ tree.places) (h : some child ∈ place.children) : place.id < child := by
  rw [children_of_mem_placesFrom hplace] at h
  exact le_of_mem_childIds h

/-! ### Parents -/

/-- `place` is in slot `slot` of `parent`, and says so. -/
def InSlot (place parent : Place) (slot : Nat) : Prop :=
  place.parent = some (parent.id, slot) ∧ parent.children[slot]? = some (some place.id)

mutual

theorem inSlot_of_mem_placesFrom {parent : Option (NodeId × Nat)} {sibling : Option NodeId}
    {id : NodeId} {tree : Tree} {place : Place} (h : place ∈ tree.placesFrom parent sibling id) :
    (place.id = id ∧ place.parent = parent) ∨
      ∃ above ∈ tree.placesFrom parent sibling id, ∃ slot, InSlot place above slot := by
  match tree with
  | .node body slots =>
    rw [placesFrom] at h ⊢
    rcases List.mem_cons.1 h with rfl | h
    · exact .inl ⟨rfl, rfl⟩
    · right
      rcases inSlot_of_mem_slotPlaces h with ⟨index, hparent, hindex⟩ | ⟨above, habove, hslot⟩
      · exact ⟨_, List.mem_cons_self, index, by simpa using hparent, hindex⟩
      · exact ⟨above, List.mem_cons_of_mem _ habove, hslot⟩

theorem inSlot_of_mem_slotPlaces {parent : NodeId} {slot : Nat} {next : NodeId}
    {slots : List (Option Tree)} {place : Place} (h : place ∈ slotPlaces parent slot next slots) :
    (∃ index, place.parent = some (parent, slot + index) ∧
        (childIds next slots)[index]? = some (some place.id)) ∨
      ∃ above ∈ slotPlaces parent slot next slots, ∃ slot, InSlot place above slot := by
  match slots with
  | [] => cases h
  | none :: rest =>
    rw [slotPlaces] at h ⊢
    rcases inSlot_of_mem_slotPlaces h with ⟨index, hparent, hindex⟩ | habove
    · exact .inl ⟨index + 1, by rw [hparent, Nat.add_right_comm, Nat.add_assoc], hindex⟩
    · exact .inr habove
  | some child :: rest =>
    rw [slotPlaces] at h ⊢
    rcases List.mem_append.1 h with h | h
    · rcases inSlot_of_mem_placesFrom h with ⟨hid, hparent⟩ | ⟨above, habove, hslot⟩
      · exact .inl ⟨0, hparent, by rw [hid]; rfl⟩
      · exact .inr ⟨above, List.mem_append_left _ habove, hslot⟩
    · rcases inSlot_of_mem_slotPlaces h with ⟨index, hparent, hindex⟩ | ⟨above, habove, hslot⟩
      · exact .inl ⟨index + 1, by rw [hparent, Nat.add_right_comm, Nat.add_assoc], hindex⟩
      · exact .inr ⟨above, List.mem_append_right _ habove, hslot⟩

end

mutual

theorem exists_inSlot_of_placesFrom {parent : Option (NodeId × Nat)} {sibling : Option NodeId}
    {id : NodeId} {tree : Tree} {above : Place} {slot : Nat} {n : NodeId}
    (h : above ∈ tree.placesFrom parent sibling id) (hn : above.children[slot]? = some (some n)) :
    ∃ place ∈ tree.placesFrom parent sibling id, place.id = n ∧ InSlot place above slot := by
  match tree with
  | .node body slots =>
    rw [placesFrom] at h ⊢
    rcases List.mem_cons.1 h with rfl | h
    · obtain ⟨place, hplace, hid, hparent⟩ := exists_place_of_childIds id 0 hn
      refine ⟨place, List.mem_cons_of_mem _ hplace, hid, by simpa using hparent, ?_⟩
      rw [hid]
      exact hn
    · obtain ⟨place, hplace, hslot⟩ := exists_inSlot_of_slotPlaces h hn
      exact ⟨place, List.mem_cons_of_mem _ hplace, hslot⟩

theorem exists_place_of_childIds (parent : NodeId) (slot : Nat) {next : NodeId}
    {slots : List (Option Tree)} {index : Nat} {n : NodeId}
    (hn : (childIds next slots)[index]? = some (some n)) :
    ∃ place ∈ slotPlaces parent slot next slots, place.id = n ∧
      place.parent = some (parent, slot + index) := by
  match slots, index with
  | [], _ => cases hn
  | none :: rest, 0 => cases hn
  | none :: rest, index + 1 =>
    rw [childIds, List.getElem?_cons_succ] at hn
    obtain ⟨place, hplace, hid, hparent⟩ := exists_place_of_childIds parent (slot + 1) hn
    exact ⟨place, hplace, hid, by rw [hparent, Nat.add_right_comm, Nat.add_assoc]⟩
  | some (.node body below) :: rest, 0 =>
    cases hn
    exact ⟨_, List.mem_append_left _ (by rw [placesFrom]; exact List.mem_cons_self), rfl, rfl⟩
  | some child :: rest, index + 1 =>
    rw [childIds, List.getElem?_cons_succ] at hn
    obtain ⟨place, hplace, hid, hparent⟩ := exists_place_of_childIds parent (slot + 1) hn
    exact ⟨place, List.mem_append_right _ hplace, hid,
      by rw [hparent, Nat.add_right_comm, Nat.add_assoc]⟩

theorem exists_inSlot_of_slotPlaces {parent : NodeId} {first : Nat} {next : NodeId}
    {slots : List (Option Tree)} {above : Place} {slot : Nat} {n : NodeId}
    (h : above ∈ slotPlaces parent first next slots)
    (hn : above.children[slot]? = some (some n)) :
    ∃ place ∈ slotPlaces parent first next slots, place.id = n ∧ InSlot place above slot := by
  match slots with
  | [] => cases h
  | none :: rest =>
    rw [slotPlaces] at h ⊢
    exact exists_inSlot_of_slotPlaces h hn
  | some child :: rest =>
    rw [slotPlaces] at h ⊢
    rcases List.mem_append.1 h with h | h
    · obtain ⟨place, hplace, hslot⟩ := exists_inSlot_of_placesFrom h hn
      exact ⟨place, List.mem_append_left _ hplace, hslot⟩
    · obtain ⟨place, hplace, hslot⟩ := exists_inSlot_of_slotPlaces h hn
      exact ⟨place, List.mem_append_right _ hplace, hslot⟩

end

theorem parent_iff_child {tree : Tree} {above place : Place} (habove : above ∈ tree.places)
    (hplace : place ∈ tree.places) (slot : Nat) :
    place.parent = some (above.id, slot) ↔ above.children[slot]? = some (some place.id) := by
  constructor
  · intro hparent
    rcases inSlot_of_mem_placesFrom hplace with ⟨_, hnone⟩ | ⟨other, hother, i, hi, hslot⟩
    · rw [hparent] at hnone
      cases hnone
    · rw [hparent, Option.some_inj, Prod.mk.injEq] at hi
      rw [eq_of_id_eq habove hother hi.1, hi.2]
      exact hslot
  · intro hchild
    obtain ⟨other, hother, hid, hslot, _⟩ := exists_inSlot_of_placesFrom habove hchild
    rw [← eq_of_id_eq hother hplace hid]
    exact hslot

theorem parent_eq_none_iff {tree : Tree} {place : Place} (hplace : place ∈ tree.places) :
    place.parent = none ↔ place.id = 0 := by
  rcases inSlot_of_mem_placesFrom hplace with ⟨hid, hparent⟩ | ⟨above, habove, slot, hslot⟩
  · exact iff_of_true hparent hid
  · have hlt := lt_of_mem_children habove (List.mem_of_getElem? hslot.2)
    refine iff_of_false ?_ (Nat.ne_zero_of_lt hlt)
    rw [hslot.1]
    simp

/-! ### The dump -/

def depth (tree : Tree) (id : NodeId) : Nat :=
  match (tree.place? id).bind Place.parent with
  | some (parent, _) => if parent < id then tree.depth parent + 1 else 0
  | none => 0
termination_by id

theorem depth_root (tree : Tree) : tree.depth 0 = 0 := by
  rw [depth]
  cases tree with
  | node body slots => rfl

theorem depth_of_parent {tree : Tree} {place : Place} {parent : NodeId} {slot : Nat}
    (hplace : place ∈ tree.places) (hparent : place.parent = some (parent, slot)) :
    tree.depth place.id = tree.depth parent + 1 := by
  have hlt : parent < place.id := by
    rcases inSlot_of_mem_placesFrom hplace with ⟨_, hnone⟩ | ⟨above, habove, _, hup, hslot⟩
    · rw [hparent] at hnone
      cases hnone
    · rw [hparent, Option.some_inj, Prod.mk.injEq] at hup
      rw [hup.1]
      exact lt_of_mem_children habove (List.mem_of_getElem? hslot)
  have hplace? : tree.place? place.id = some place := lookUp_eq_ok_iff.1 (lookUp_of_mem hplace)
  rw [depth, hplace?, Option.bind_some, hparent]
  dsimp only
  rw [if_pos hlt]

def indentation (depth : Nat) : String :=
  String.ofList (List.replicate (2 * depth) ' ')

theorem indentation_succ (depth : Nat) :
    indentation (depth + 1) = indentation depth ++ "  " := by
  have hlist : List.replicate (2 * (depth + 1)) ' ' =
      List.replicate (2 * depth) ' ' ++ [' ', ' '] := List.replicate_append_replicate.symm
  rw [indentation, hlist, String.ofList_append]
  rfl

/-- The line of a node that has `depth` nodes above it. -/
def Place.line (heap : Heap) (depth : Nat) (place : Place) : String :=
  indentation depth ++ place.subtree.kind.name ++ " " ++ place.subtree.text heap ++ "\n"

section Lines
variable {heap : Heap} {level : NodeId → Nat}

mutual

theorem dumpAt_eq_join {parent : Option (NodeId × Nat)} {sibling : Option NodeId} {id : NodeId}
    {tree : Tree} (hlevel : ∀ place ∈ tree.placesFrom parent sibling id, ∀ above slot,
      place.parent = some (above, slot) → level place.id = level above + 1) :
    tree.dumpAt heap (indentation (level id)) =
      String.join ((tree.placesFrom parent sibling id).map fun place =>
        place.line heap (level place.id)) := by
  match tree with
  | .node body slots =>
    have hbelow : dumpSlots heap (indentation (level id + 1)) slots =
        String.join ((slotPlaces id 0 (id + 1) slots).map fun place =>
          place.line heap (level place.id)) := by
      refine dumpSlots_eq_join fun place hplace => ?_
      rw [placesFrom] at hlevel
      exact hlevel place (List.mem_cons_of_mem _ hplace)
    rw [placesFrom, dumpAt, List.map_cons, String.join_cons, ← indentation_succ, hbelow]
    rfl

theorem dumpSlots_eq_join {parent : NodeId} {slot : Nat} {next : NodeId}
    {slots : List (Option Tree)} (hlevel : ∀ place ∈ slotPlaces parent slot next slots,
      ∀ above slot, place.parent = some (above, slot) → level place.id = level above + 1) :
    dumpSlots heap (indentation (level parent + 1)) slots =
      String.join ((slotPlaces parent slot next slots).map fun place =>
        place.line heap (level place.id)) := by
  match slots with
  | [] => rfl
  | none :: rest =>
    rw [slotPlaces] at hlevel ⊢
    rw [dumpSlots]
    exact dumpSlots_eq_join hlevel
  | some (.node body below) :: rest =>
    rw [slotPlaces] at hlevel ⊢
    have hchild : level next = level parent + 1 := by
      rw [placesFrom] at hlevel
      exact hlevel _ (List.mem_append_left _ List.mem_cons_self) parent slot rfl
    rw [dumpSlots, List.map_append, String.join_append, ← hchild, dumpAt_eq_join, hchild,
      dumpSlots_eq_join]
    · intro place hplace
      exact hlevel place (List.mem_append_right _ hplace)
    · intro place hplace
      exact hlevel place (List.mem_append_left _ hplace)

end

end Lines

theorem dump_eq_lines (heap : Heap) (tree : Tree) :
    tree.dump heap =
      String.join (tree.places.map fun place => place.line heap (tree.depth place.id)) := by
  have hlevel : ∀ place ∈ tree.placesFrom none none 0, ∀ above slot,
      place.parent = some (above, slot) → tree.depth place.id = tree.depth above + 1 :=
    fun place hplace above slot hparent => depth_of_parent hplace hparent
  have hlines : tree.dumpAt heap (indentation (tree.depth 0)) = _ := dumpAt_eq_join hlevel
  rw [depth_root] at hlines
  exact hlines

/-! ### All of it -/

/-- The names of the nodes, their links and the dump go by one order. -/
structure Ordered (tree : Tree) : Prop where
  ids : tree.places.map Place.id = List.range tree.size
  child_after : ∀ place ∈ tree.places, ∀ child, some child ∈ place.children → place.id < child
  child_mem : ∀ above ∈ tree.places, ∀ child, some child ∈ above.children →
    ∃ place ∈ tree.places, place.id = child
  parent_none_iff : ∀ place ∈ tree.places, place.parent = none ↔ place.id = 0
  parent_mem : ∀ place ∈ tree.places, ∀ parent slot, place.parent = some (parent, slot) →
    ∃ above ∈ tree.places, above.id = parent
  parent_iff : ∀ above ∈ tree.places, ∀ place ∈ tree.places, ∀ slot,
    place.parent = some (above.id, slot) ↔ above.children[slot]? = some (some place.id)
  dump : ∀ heap, tree.dump heap =
    String.join (tree.places.map fun place => place.line heap (tree.depth place.id))

theorem ordered (tree : Tree) : tree.Ordered where
  ids := places_ids tree
  child_after place hplace child h := lt_of_mem_children hplace h
  child_mem above habove child h := by
    obtain ⟨slot, hslot⟩ := List.mem_iff_getElem?.1 h
    obtain ⟨place, hplace, hid, _⟩ := exists_inSlot_of_placesFrom habove hslot
    exact ⟨place, hplace, hid⟩
  parent_none_iff place hplace := parent_eq_none_iff hplace
  parent_mem place hplace parent slot hparent := by
    rcases inSlot_of_mem_placesFrom hplace with ⟨_, hnone⟩ | ⟨above, habove, _, hup, _⟩
    · rw [hparent] at hnone
      cases hnone
    · rw [hparent, Option.some_inj, Prod.mk.injEq] at hup
      exact ⟨above, habove, hup.1.symm⟩
  parent_iff above habove place hplace slot := parent_iff_child habove hplace slot
  dump heap := dump_eq_lines heap tree

end Tree
end ObjectNavigation
