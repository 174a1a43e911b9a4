import Mathlib.Data.List.Nodup
import ObjectNavigation.Proofs.Builder.Descent

/-!
The nodes below a node, in order. Nothing keeps a node from being below itself, so the list stops
where a way leads back to the node it began with. Since a node is in one slot at most, no other way
leads in a circle: there is such a list below every node, and no node is in it twice.
-/

namespace ObjectNavigation
namespace Builder
variable {builder : Builder} {id top : NodeId}

/-! ### The nodes below a node -/

/-- The nodes below `top` from these slots on, depth first. Where a way leads back to `top` it is
listed, but what is below it is not listed again. -/
inductive Lists (builder : Builder) (top : NodeId) : List (Option NodeId) → List NodeId → Prop where
  | nil : Lists builder top [] []
  | hole {rest : List (Option NodeId)} {order : List NodeId} (h : Lists builder top rest order) :
      Lists builder top (none :: rest) order
  | again {rest : List (Option NodeId)} {order : List NodeId} (h : Lists builder top rest order) :
      Lists builder top (some top :: rest) (top :: order)
  | child {c : NodeId} {rest : List (Option NodeId)} {inner order : List NodeId} (ne : c ≠ top)
      (hinner : Lists builder top (builder.children c) inner) (h : Lists builder top rest order) :
      Lists builder top (some c :: rest) (c :: inner ++ order)

namespace Lists
variable {slots others : List (Option NodeId)} {order more : List NodeId}

theorem unique (h : builder.Lists top slots order) (hmore : builder.Lists top slots more) :
    order = more := by
  induction h generalizing more with
  | nil =>
    cases hmore
    rfl
  | hole _ ih =>
    cases hmore with
    | hole h => exact ih h
  | again _ ih =>
    cases hmore with
    | again h => rw [ih h]
    | child ne => exact absurd rfl ne
  | child ne _ _ ihinner ih =>
    cases hmore with
    | again => exact absurd rfl ne
    | child _ hinner h => rw [ihinner hinner, ih h]

theorem append (h : builder.Lists top slots order) (hothers : builder.Lists top others more) :
    builder.Lists top (slots ++ others) (order ++ more) := by
  induction h with
  | nil => exact hothers
  | hole _ ih => exact .hole ih
  | again _ ih => exact .again ih
  | child ne hinner _ _ ih =>
    rw [List.cons_append, List.append_assoc]
    exact .child ne hinner ih

theorem mem_of_slot (h : builder.Lists top slots order) {c : NodeId} (hc : some c ∈ slots) :
    c ∈ order := by
  induction h with
  | nil => cases hc
  | hole _ ih => exact ih ((List.mem_cons.1 hc).resolve_left nofun)
  | again _ ih =>
    rcases List.mem_cons.1 hc with heq | hc
    · cases heq
      exact List.mem_cons_self
    · exact List.mem_cons_of_mem _ (ih hc)
  | child _ _ _ _ ih =>
    rcases List.mem_cons.1 hc with heq | hc
    · cases heq
      exact List.mem_cons_self
    · exact List.mem_append_right _ (ih hc)

theorem mem_of_holds (h : builder.Lists top slots order) {n c : NodeId} (hn : n ∈ order)
    (ne : n ≠ top) (hc : builder.Holds n c) : c ∈ order := by
  induction h with
  | nil => cases hn
  | hole _ ih => exact ih hn
  | again _ ih => exact List.mem_cons_of_mem _ (ih ((List.mem_cons.1 hn).resolve_left ne))
  | child _ hinner _ ihinner ih =>
    rcases List.mem_append.1 hn with hn | hn
    · refine List.mem_append_left _ (List.mem_cons_of_mem _ ?_)
      rcases List.mem_cons.1 hn with rfl | hn
      · exact hinner.mem_of_slot hc
      · exact ihinner hn
    · exact List.mem_append_right _ (ih hn)

theorem reached (h : builder.Lists top slots order) {n : NodeId} (hn : n ∈ order) :
    ∃ c, some c ∈ slots ∧ Relation.ReflTransGen builder.Holds c n := by
  induction h with
  | nil => cases hn
  | hole _ ih =>
    obtain ⟨c, hc, hcn⟩ := ih hn
    exact ⟨c, List.mem_cons_of_mem _ hc, hcn⟩
  | again _ ih =>
    rcases List.mem_cons.1 hn with rfl | hn
    · exact ⟨n, List.mem_cons_self, .refl⟩
    · obtain ⟨c, hc, hcn⟩ := ih hn
      exact ⟨c, List.mem_cons_of_mem _ hc, hcn⟩
  | @child c _ _ _ _ _ _ ihinner ih =>
    rcases List.mem_append.1 hn with hn | hn
    · refine ⟨c, List.mem_cons_self, ?_⟩
      rcases List.mem_cons.1 hn with rfl | hn
      · exact .refl
      · obtain ⟨d, hd, hdn⟩ := ihinner hn
        exact .head hd hdn
    · obtain ⟨d, hd, hdn⟩ := ih hn
      exact ⟨d, List.mem_cons_of_mem _ hd, hdn⟩

theorem mem_iff (h : builder.Lists top (builder.children top) order) {n : NodeId} :
    n ∈ order ↔ Relation.TransGen builder.Holds top n := by
  constructor
  · intro hn
    obtain ⟨c, hc, hcn⟩ := h.reached hn
    exact .head' hc hcn
  · intro hn
    induction hn with
    | single hc => exact h.mem_of_slot hc
    | @tail m n _ hmn ih =>
      by_cases heq : m = top
      · subst heq
        exact h.mem_of_slot hmn
      · exact h.mem_of_holds ih heq hmn

theorem count_eq (h : builder.Lists top slots order) (n : NodeId) :
    order.count n = slots.count (some n) +
      ((order.filter (· ≠ top)).flatMap builder.children).count (some n) := by
  induction h with
  | nil => rfl
  | hole _ ih =>
    rw [ih, List.count_cons_of_ne]
    exact nofun
  | again _ ih =>
    have hskip : ∀ order : List NodeId, (top :: order).filter (· ≠ top) = order.filter (· ≠ top) :=
      fun order => List.filter_cons_of_neg (by simp)
    rw [hskip, List.count_cons, List.count_cons, ih]
    simp only [beq_iff_eq, Option.some.injEq]
    omega
  | @child c rest inner order ne _ _ ihinner ih =>
    have htake : (c :: inner ++ order).filter (· ≠ top) =
        c :: (inner.filter (· ≠ top) ++ order.filter (· ≠ top)) := by
      rw [List.cons_append, List.filter_cons_of_pos (by simpa using ne), List.filter_append]
    rw [htake, List.cons_append, List.count_cons, List.count_cons, List.count_append, ih, ihinner,
      List.flatMap_cons, List.flatMap_append, List.count_append, List.count_append]
    simp only [beq_iff_eq, Option.some.injEq]
    omega

end Lists

/-! ### Each node is listed once -/

theorem count_of_distinct {slots : List (Option NodeId)} (h : Distinct slots) {n : NodeId}
    (hn : some n ∈ slots) : slots.count (some n) = 1 := by
  induction h with
  | nil => cases hn
  | @cons slot rest hslot hrest ih =>
    rcases List.mem_cons.1 hn with rfl | hmem
    · have hnot : some n ∉ rest := fun hmem => (hslot _ hmem).elim nofun fun hne => hne rfl
      rw [List.count_cons_self, List.count_eq_zero.2 hnot]
    · have hne : slot ≠ some n := by
        rintro rfl
        exact (hslot _ hmem).elim nofun fun hne => hne rfl
      rw [List.count_cons_of_ne hne, ih hmem]

section Linked
variable (linked : builder.Linked)
include linked

theorem Linked.count_children {p n : NodeId} (hp : builder.Holds p n) (m : NodeId) :
    (builder.children m).count (some n) = if m = p then 1 else 0 := by
  split
  next heq => exact count_of_distinct (linked.distinct m) (heq ▸ hp)
  next hne => exact List.count_eq_zero.2 fun hm => hne (linked.holder_unique hm hp)

theorem Linked.count_flatMap_children {p n : NodeId} (hp : builder.Holds p n)
    (nodes : List NodeId) : (nodes.flatMap builder.children).count (some n) = nodes.count p := by
  induction nodes with
  | nil => rfl
  | cons m rest ih =>
    rw [List.flatMap_cons, List.count_append, ih, linked.count_children hp, List.count_cons,
      Nat.add_comm]
    simp only [beq_iff_eq]

/-- A node is listed as often as its parent, and that goes up to the children of the first node. -/
theorem Lists.nodup {order : List NodeId} (h : builder.Lists id (builder.children id) order) :
    order.Nodup := by
  refine List.nodup_iff_count_le_one.2 fun n => ?_
  by_cases hn : n ∈ order
  · refine Nat.le_of_eq ?_
    induction h.mem_iff.1 hn with
    | @single n hc =>
      rw [h.count_eq, linked.count_children hc, linked.count_flatMap_children hc, if_pos rfl,
        List.count_eq_zero.2 (by simp)]
    | @tail m n hm hmn ih =>
      rw [h.count_eq, linked.count_children hmn, linked.count_flatMap_children hmn]
      by_cases heq : id = m
      · rw [if_pos heq, List.count_eq_zero.2 (by simp [heq])]
      · rw [if_neg heq, Nat.zero_add, List.count_filter (by simpa using Ne.symm heq)]
        exact ih (h.mem_iff.2 hm)
  · rw [List.count_eq_zero.2 hn]
    exact Nat.zero_le 1

end Linked

/-! ### All that is below a node is listed -/

def cut (builder : Builder) (top : NodeId) : Builder where
  slots := builder.slots.mapIdx fun n slot =>
    { slot with
      parent := if n = top then none else slot.parent
      children := slot.children.map (Option.filter (· ≠ top)) }

theorem slot?_cut (builder : Builder) (top n : NodeId) :
    (builder.cut top).slot? n = (builder.slot? n).map fun slot =>
      { slot with
        parent := if n = top then none else slot.parent
        children := slot.children.map (Option.filter (· ≠ top)) } :=
  Array.getElem?_mapIdx

theorem children_cut (builder : Builder) (top p : NodeId) :
    (builder.cut top).children p = (builder.children p).map (Option.filter (· ≠ top)) := by
  rw [children, children, slot?_cut]
  cases builder.slot? p <;> rfl

theorem holds_cut_iff {p c : NodeId} :
    (builder.cut top).Holds p c ↔ c ≠ top ∧ builder.Holds p c := by
  rw [Holds, children_cut, List.mem_map]
  constructor
  · rintro ⟨s, hs, heq⟩
    obtain ⟨rfl, hne⟩ := Option.filter_eq_some_iff.1 heq
    exact ⟨by simpa using hne, hs⟩
  · rintro ⟨hne, hc⟩
    exact ⟨some c, hc, Option.filter_eq_some_iff.2 ⟨rfl, by simpa using hne⟩⟩

theorem parent?_cut (builder : Builder) (top c : NodeId) :
    (builder.cut top).parent? c = if c = top then none else builder.parent? c := by
  rw [parent?, parent?, slot?_cut]
  cases builder.slot? c with
  | none => simp
  | some slot => rfl

theorem Linked.cut (linked : builder.Linked) (top : NodeId) : (builder.cut top).Linked where
  parent_iff p c := by
    rw [holds_cut_iff, ← linked.parent_iff, parent?_cut]
    split
    next heq => exact iff_of_false nofun fun h => h.1 heq
    next hne => exact (and_iff_right hne).symm
  distinct p := by
    rw [children_cut]
    refine List.pairwise_map.2 ((linked.distinct p).imp fun {s t} hst => ?_)
    cases hs : s.filter (· ≠ top) with
    | none => exact .inl rfl
    | some c =>
      obtain ⟨rfl, _⟩ := Option.filter_eq_some_iff.1 hs
      refine .inr fun heq => ?_
      obtain ⟨rfl, _⟩ := Option.filter_eq_some_iff.1 heq.symm
      exact hst.elim nofun fun hne => hne rfl
  unclosed n slot hn hstage := by
    rw [slot?_cut] at hn
    obtain ⟨old, hold, rfl⟩ := Option.map_eq_some_iff.1 hn
    dsimp only
    split
    next => exact nofun
    next => exact linked.unclosed n old hold hstage

theorem Lists.exists_of_slots {slots : List (Option NodeId)}
    (h : ∀ c, some c ∈ slots → c ≠ top → ∃ inner, builder.Lists top (builder.children c) inner) :
    ∃ order, builder.Lists top slots order := by
  induction slots with
  | nil => exact ⟨[], .nil⟩
  | cons slot rest ih =>
    obtain ⟨order, horder⟩ := ih fun c hc => h c (List.mem_cons_of_mem _ hc)
    cases slot with
    | none => exact ⟨order, .hole horder⟩
    | some c =>
      by_cases heq : c = top
      · subst heq
        exact ⟨c :: order, .again horder⟩
      · obtain ⟨inner, hinner⟩ := h c List.mem_cons_self heq
        exact ⟨c :: inner ++ order, .child heq hinner horder⟩

/-- A way down that does not lead back to its beginning is no longer than there are nodes. -/
theorem Linked.exists_lists (linked : builder.Linked) {slot : Slot}
    (hknown : builder.slot? top = some slot) :
    ∃ order, builder.Lists top (builder.children top) order := by
  have hcut := linked.cut top
  have hroot : (builder.cut top).parent? top = none := by rw [parent?_cut, if_pos rfl]
  have hfound : ∃ held, (builder.cut top).slot? top = some held := by
    rw [slot?_cut, hknown]
    exact ⟨_, rfl⟩
  obtain ⟨held, hheld⟩ := hfound
  have hdeep : ∀ depth n above, (builder.cut top).Descends top n above →
      (builder.cut top).slots.size ≤ above.length + depth →
        ∃ order, builder.Lists top (builder.children n) order := by
    intro depth
    induction depth with
    | zero =>
      intro n above hn hle
      exact absurd (hn.length_lt hcut hroot hheld) (Nat.not_lt.2 hle)
    | succ depth ih =>
      intro n above hn hle
      refine Lists.exists_of_slots fun c hc hne => ?_
      refine ih c (n :: above) (.child hn (holds_cut_iff.2 ⟨hne, hc⟩)) ?_
      rw [List.length_cons, Nat.add_right_comm]
      exact hle
  exact hdeep _ top [] .root (Nat.le_add_left _ _)

end Builder
end ObjectNavigation
