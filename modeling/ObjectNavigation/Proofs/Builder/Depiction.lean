import ObjectNavigation.Builder.Finish
import ObjectNavigation.Proofs.Builder.Descent

/-!
Trees in a builder. A node of a builder depicts a tree if the closed nodes below it have the bodies
and the slots of the tree. A list of nodes goes with it: these nodes in the order of the tree. It
lists what is below the node, and below a root without a parent it lists no node twice.
-/

namespace ObjectNavigation
namespace Builder

mutual

/-- The nodes from `id` down are those of the tree; `order` lists them. -/
def Depicts (builder : Builder) : Tree → NodeId → List NodeId → Prop
  | .node body slots, id, order =>
    ∃ held below, builder.slot? id = some held ∧ held.stage = .closed ∧ held.body = body ∧
      builder.DepictsSlots slots held.children below ∧ order = id :: below

def DepictsSlots (builder : Builder) :
    List (Option Tree) → List (Option NodeId) → List NodeId → Prop
  | [], ids, order => ids = [] ∧ order = []
  | none :: rest, ids, order => ∃ others, ids = none :: others ∧
      builder.DepictsSlots rest others order
  | some child :: rest, ids, order => ∃ id others first last, ids = some id :: others ∧
      builder.Depicts child id first ∧ builder.DepictsSlots rest others last ∧
      order = first ++ last

end

variable {builder : Builder}

/-! ### What is listed -/

theorem Depicts.mem_self {tree : Tree} {id : NodeId} {order : List NodeId}
    (h : builder.Depicts tree id order) : id ∈ order := by
  cases tree with
  | node body slots =>
    obtain ⟨_, _, _, _, _, _, rfl⟩ := h
    exact List.mem_cons_self

theorem DepictsSlots.mem_of_child {slots : List (Option Tree)} {ids : List (Option NodeId)}
    {order : List NodeId} (h : builder.DepictsSlots slots ids order) {c : NodeId}
    (hc : some c ∈ ids) : c ∈ order := by
  induction slots generalizing ids order with
  | nil =>
    obtain ⟨rfl, rfl⟩ := h
    cases hc
  | cons slot rest ih =>
    cases slot with
    | none =>
      obtain ⟨others, rfl, h⟩ := h
      exact ih h ((List.mem_cons.1 hc).resolve_left (by simp))
    | some child =>
      obtain ⟨id, others, first, last, rfl, hchild, hrest, rfl⟩ := h
      rcases List.mem_cons.1 hc with heq | hc
      · cases heq
        exact List.mem_append_left _ hchild.mem_self
      · exact List.mem_append_right _ (ih hrest hc)

mutual

theorem Depicts.closed {tree : Tree} {id : NodeId} {order : List NodeId}
    (h : builder.Depicts tree id order) {n : NodeId} (hn : n ∈ order) :
    ∃ held, builder.slot? n = some held ∧ held.stage = .closed := by
  match tree with
  | .node body slots =>
    obtain ⟨held, below, hheld, hclosed, _, hslots, rfl⟩ := h
    rcases List.mem_cons.1 hn with rfl | hn
    · exact ⟨held, hheld, hclosed⟩
    · exact hslots.closed hn

theorem DepictsSlots.closed {slots : List (Option Tree)} {ids : List (Option NodeId)}
    {order : List NodeId} (h : builder.DepictsSlots slots ids order) {n : NodeId}
    (hn : n ∈ order) : ∃ held, builder.slot? n = some held ∧ held.stage = .closed := by
  match slots with
  | [] =>
    obtain ⟨rfl, rfl⟩ := h
    cases hn
  | none :: rest =>
    obtain ⟨others, rfl, h⟩ := h
    exact h.closed hn
  | some child :: rest =>
    obtain ⟨id, others, first, last, rfl, hchild, hrest, rfl⟩ := h
    rcases List.mem_append.1 hn with hn | hn
    · exact hchild.closed hn
    · exact hrest.closed hn

end

mutual

theorem Depicts.holds_closed {tree : Tree} {id : NodeId} {order : List NodeId}
    (h : builder.Depicts tree id order) {n c : NodeId} (hn : n ∈ order)
    (hc : builder.Holds n c) : c ∈ order := by
  match tree with
  | .node body slots =>
    obtain ⟨held, below, hheld, _, _, hslots, rfl⟩ := h
    rcases List.mem_cons.1 hn with rfl | hn
    · obtain ⟨slot, hslot, hmem⟩ := holds_iff_slot.1 hc
      rw [hheld] at hslot
      cases hslot
      exact List.mem_cons_of_mem _ (hslots.mem_of_child hmem)
    · exact List.mem_cons_of_mem _ (hslots.holds_closed hn hc)

theorem DepictsSlots.holds_closed {slots : List (Option Tree)} {ids : List (Option NodeId)}
    {order : List NodeId} (h : builder.DepictsSlots slots ids order) {n c : NodeId}
    (hn : n ∈ order) (hc : builder.Holds n c) : c ∈ order := by
  match slots with
  | [] =>
    obtain ⟨rfl, rfl⟩ := h
    cases hn
  | none :: rest =>
    obtain ⟨others, rfl, h⟩ := h
    exact h.holds_closed hn hc
  | some child :: rest =>
    obtain ⟨id, others, first, last, rfl, hchild, hrest, rfl⟩ := h
    rcases List.mem_append.1 hn with hn | hn
    · exact List.mem_append_left _ (hchild.holds_closed hn hc)
    · exact List.mem_append_right _ (hrest.holds_closed hn hc)

end

mutual

theorem Depicts.below {tree : Tree} {id : NodeId} {order : List NodeId}
    (h : builder.Depicts tree id order) {n : NodeId} (hn : n ∈ order) :
    Relation.ReflTransGen builder.Holds id n := by
  match tree with
  | .node body slots =>
    obtain ⟨held, below, hheld, _, _, hslots, rfl⟩ := h
    rcases List.mem_cons.1 hn with rfl | hn
    · exact .refl
    · obtain ⟨c, hc, hcn⟩ := hslots.below hn
      exact .head (holds_iff_slot.2 ⟨held, hheld, hc⟩) hcn

theorem DepictsSlots.below {slots : List (Option Tree)} {ids : List (Option NodeId)}
    {order : List NodeId} (h : builder.DepictsSlots slots ids order) {n : NodeId}
    (hn : n ∈ order) : ∃ c, some c ∈ ids ∧ Relation.ReflTransGen builder.Holds c n := by
  match slots with
  | [] =>
    obtain ⟨rfl, rfl⟩ := h
    cases hn
  | none :: rest =>
    obtain ⟨others, rfl, h⟩ := h
    obtain ⟨c, hc, hcn⟩ := h.below hn
    exact ⟨c, List.mem_cons_of_mem _ hc, hcn⟩
  | some child :: rest =>
    obtain ⟨id, others, first, last, rfl, hchild, hrest, rfl⟩ := h
    rcases List.mem_append.1 hn with hn | hn
    · exact ⟨id, List.mem_cons_self, hchild.below hn⟩
    · obtain ⟨c, hc, hcn⟩ := hrest.below hn
      exact ⟨c, List.mem_cons_of_mem _ hc, hcn⟩

end

theorem Depicts.mem_iff {tree : Tree} {id : NodeId} {order : List NodeId}
    (h : builder.Depicts tree id order) (n : NodeId) :
    n ∈ order ↔ Relation.ReflTransGen builder.Holds id n := by
  constructor
  · exact h.below
  · intro hn
    induction hn with
    | refl => exact h.mem_self
    | tail _ hc ih => exact h.holds_closed ih hc

/-! ### No node is listed twice -/

section Nodup
variable {root : NodeId} (linked : builder.Linked) (hroot : builder.parent? root = none)
include linked hroot

mutual

theorem Depicts.nodup {tree : Tree} {id : NodeId} {order above : List NodeId}
    (h : builder.Depicts tree id order) (hid : builder.Descends root id above) :
    order.Nodup := by
  match tree with
  | .node body slots =>
    obtain ⟨held, below, hheld, _, _, hslots, rfl⟩ := h
    have hchildren : builder.children id = held.children := by simp [children, hheld]
    have hholds : ∀ c, some c ∈ held.children → builder.Holds id c := fun c hc =>
      holds_iff_slot.2 ⟨held, hheld, hc⟩
    refine List.nodup_cons.2 ⟨fun hmem => ?_,
      DepictsSlots.nodup hslots hid (hchildren ▸ linked.distinct id) hholds⟩
    -- a node that is below one of its children would be met twice on the way down
    obtain ⟨c, hc, hcid⟩ := hslots.below hmem
    obtain ⟨path, between, hpath, heq⟩ := (Descends.child hid (hholds c hc)).through hcid
    have hlen := congrArg List.length heq
    rw [← Descends.unique linked hroot hid hpath] at hlen
    simp only [List.length_cons, List.length_append] at hlen
    omega

theorem DepictsSlots.nodup {slots : List (Option Tree)} {ids : List (Option NodeId)}
    {id : NodeId} {order above : List NodeId} (h : builder.DepictsSlots slots ids order)
    (hid : builder.Descends root id above) (hdistinct : Distinct ids)
    (hholds : ∀ c, some c ∈ ids → builder.Holds id c) : order.Nodup := by
  match slots with
  | [] =>
    obtain ⟨rfl, rfl⟩ := h
    exact .nil
  | none :: rest =>
    obtain ⟨others, rfl, h⟩ := h
    exact DepictsSlots.nodup h hid (List.pairwise_cons.1 hdistinct).2 fun c hc =>
      hholds c (List.mem_cons_of_mem _ hc)
  | some child :: rest =>
    obtain ⟨c, others, first, last, rfl, hchild, hrest, rfl⟩ := h
    have hother : ∀ d, some d ∈ others → builder.Holds id d := fun d hd =>
      hholds d (List.mem_cons_of_mem _ hd)
    have hc : builder.Descends root c (id :: above) := .child hid (hholds c List.mem_cons_self)
    refine List.nodup_append.2 ⟨Depicts.nodup hchild hc,
      DepictsSlots.nodup hrest hid (List.pairwise_cons.1 hdistinct).2 hother, ?_⟩
    rintro n hn _ hm rfl
    obtain ⟨d, hd, hdn⟩ := hrest.below hm
    have hcd : c = d := Descends.eq_of_common linked hroot hc (.child hid (hother d hd))
      (hchild.below hn) hdn
    rcases (List.pairwise_cons.1 hdistinct).1 (some d) hd with hnone | hne
    · cases hnone
    · exact hne (congrArg some hcd)

end

end Nodup

/-! ### Names -/

/-- `place` is the node `n` of a builder under the names that `rename` gives. -/
structure Renames (builder : Builder) (rename : NodeId → NodeId) (n : NodeId)
    (place : Tree.Place) : Prop where
  id : place.id = rename n
  body : (builder.slot? n).map Slot.body = some place.subtree.body
  children : place.children = (builder.children n).map (Option.map rename)
  parent : place.parent.map Prod.fst = (builder.parent? n).map rename

mutual

theorem Depicts.length_eq {tree : Tree} {id : NodeId} {order : List NodeId}
    (h : builder.Depicts tree id order) : order.length = tree.size := by
  match tree with
  | .node body slots =>
    obtain ⟨held, below, _, _, _, hslots, rfl⟩ := h
    rw [List.length_cons, hslots.length_eq, Tree.size, Nat.add_comm]

theorem DepictsSlots.length_eq {slots : List (Option Tree)} {ids : List (Option NodeId)}
    {order : List NodeId} (h : builder.DepictsSlots slots ids order) :
    order.length = Tree.sizeSlots slots := by
  match slots with
  | [] =>
    obtain ⟨rfl, rfl⟩ := h
    rfl
  | none :: rest =>
    obtain ⟨others, rfl, h⟩ := h
    exact h.length_eq
  | some child :: rest =>
    obtain ⟨id, others, first, last, rfl, hchild, hrest, rfl⟩ := h
    rw [List.length_append, hchild.length_eq, hrest.length_eq, Tree.sizeSlots]

end

section Renames
variable {rename : NodeId → NodeId}

theorem DepictsSlots.childIds {slots : List (Option Tree)} {ids : List (Option NodeId)}
    {order : List NodeId} {next : NodeId} (h : builder.DepictsSlots slots ids order)
    (hrename : ∀ k n, order[k]? = some n → rename n = next + k) :
    Tree.childIds next slots = ids.map (Option.map rename) := by
  induction slots generalizing ids order next with
  | nil =>
    obtain ⟨rfl, rfl⟩ := h
    rfl
  | cons slot rest ih =>
    cases slot with
    | none =>
      obtain ⟨others, rfl, h⟩ := h
      rw [Tree.childIds, ih h hrename]
      rfl
    | some child =>
      obtain ⟨id, others, first, last, rfl, hchild, hrest, rfl⟩ := h
      have hfirst : rename id = next := by
        cases child with
        | node body below =>
          obtain ⟨_, _, _, _, _, _, rfl⟩ := hchild
          exact hrename 0 id rfl
      have hlast : ∀ k n, last[k]? = some n → rename n = next + child.size + k := by
        intro k n hn
        rw [Nat.add_assoc, ← hchild.length_eq]
        refine hrename _ n ?_
        rw [List.getElem?_append_right (Nat.le_add_right _ _), Nat.add_sub_cancel_left, hn]
      rw [Tree.childIds, ih hrest hlast, List.map_cons, Option.map_some, hfirst]

mutual

theorem Depicts.renames (linked : builder.Linked) {tree : Tree} {id name : NodeId}
    {order : List NodeId} {parent : Option (NodeId × Nat)} {sibling : Option NodeId}
    (h : builder.Depicts tree id order)
    (hrename : ∀ k n, order[k]? = some n → rename n = name + k)
    (hparent : parent.map Prod.fst = (builder.parent? id).map rename) :
    List.Forall₂ (builder.Renames rename) order (tree.placesFrom parent sibling name) := by
  match tree with
  | .node body slots =>
    obtain ⟨held, below, hheld, _, hbody, hslots, rfl⟩ := h
    have hid : rename id = name := hrename 0 id rfl
    have hbelow : ∀ k n, below[k]? = some n → rename n = name + 1 + k := by
      intro k n hn
      rw [Nat.add_assoc, Nat.add_comm 1 k]
      exact hrename (k + 1) n hn
    have hchildren : builder.children id = held.children := by simp [children, hheld]
    rw [Tree.placesFrom]
    refine .cons ⟨hid.symm, by rw [hheld, Option.map_some, hbody]; rfl, ?_, hparent⟩ ?_
    · rw [hchildren, ← hslots.childIds hbelow]
    · refine hid ▸ hslots.renames linked (hid.symm ▸ hbelow) fun c hc => ?_
      exact holds_iff_slot.2 ⟨held, hheld, hc⟩

theorem DepictsSlots.renames (linked : builder.Linked) {slots : List (Option Tree)}
    {ids : List (Option NodeId)} {id next : NodeId} {order : List NodeId} {slot : Nat}
    (h : builder.DepictsSlots slots ids order)
    (hrename : ∀ k n, order[k]? = some n → rename n = next + k)
    (hholds : ∀ c, some c ∈ ids → builder.Holds id c) :
    List.Forall₂ (builder.Renames rename) order
      (Tree.slotPlaces (rename id) slot next slots) := by
  match slots with
  | [] =>
    obtain ⟨rfl, rfl⟩ := h
    exact .nil
  | none :: rest =>
    obtain ⟨others, rfl, h⟩ := h
    exact h.renames linked hrename fun c hc => hholds c (List.mem_cons_of_mem _ hc)
  | some child :: rest =>
    obtain ⟨c, others, first, last, rfl, hchild, hrest, rfl⟩ := h
    have hlen := hchild.length_eq
    have hfirst : ∀ k n, first[k]? = some n → rename n = next + k := fun k n hn =>
      hrename k n (List.getElem?_append_left (List.getElem?_eq_some_iff.1 hn).1 ▸ hn)
    have hlast : ∀ k n, last[k]? = some n → rename n = next + child.size + k := by
      intro k n hn
      rw [Nat.add_assoc, ← hlen]
      refine hrename _ n ?_
      rw [List.getElem?_append_right (Nat.le_add_right _ _), Nat.add_sub_cancel_left, hn]
    have hparent : builder.parent? c = some id :=
      (linked.parent_iff id c).2 (hholds c List.mem_cons_self)
    rw [Tree.slotPlaces]
    refine List.rel_append (hchild.renames linked hfirst ?_) (hrest.renames linked hlast ?_)
    · rw [hparent]
      rfl
    · exact fun d hd => hholds d (List.mem_cons_of_mem _ hd)

end

end Renames
end Builder
end ObjectNavigation
