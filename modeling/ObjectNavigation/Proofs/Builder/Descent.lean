import Mathlib.Data.List.Perm.Subperm
import Mathlib.Logic.Relation
import ObjectNavigation.Proofs.Builder.Links

/-!
Descent from a root. The nodes above a node are found by going from parent to parent, so below a
root that has no parent there is one way to each node, and it meets no node twice. A circle of
nodes is never reached from such a root, whatever circles the builder holds.
-/

namespace ObjectNavigation
namespace Builder

/-- A node below `root`, with the nodes above it from its parent up to `root`. -/
inductive Descends (builder : Builder) (root : NodeId) : NodeId → List NodeId → Prop where
  | root : Descends builder root root []
  | child {p c : NodeId} {above : List NodeId} (parent : Descends builder root p above)
      (h : builder.Holds p c) : Descends builder root c (p :: above)

namespace Descends
variable {builder : Builder} {root n c : NodeId} {above : List NodeId}

theorem through (hc : builder.Descends root c above)
    (hn : Relation.ReflTransGen builder.Holds c n) :
    ∃ path between, builder.Descends root n path ∧ n :: path = between ++ c :: above := by
  induction hn with
  | refl => exact ⟨above, [], hc, rfl⟩
  | @tail p m _ hpm ih =>
    obtain ⟨path, between, hpath, heq⟩ := ih
    exact ⟨p :: path, m :: between, .child hpath hpm, by rw [heq, List.cons_append]⟩

theorem of_mem (hn : builder.Descends root n above) {m : NodeId} (hm : m ∈ above) :
    ∃ path, builder.Descends root m path ∧ path.length < above.length := by
  induction hn with
  | root => cases hm
  | @child p c above hp _ ih =>
    rcases List.mem_cons.1 hm with rfl | hm
    · exact ⟨above, hp, Nat.lt_succ_self _⟩
    · obtain ⟨path, hpath, hlt⟩ := ih hm
      exact ⟨path, hpath, Nat.lt_succ_of_lt hlt⟩

section Linked
variable (linked : builder.Linked) (hroot : builder.parent? root = none)
include linked hroot

theorem not_holds_root (p : NodeId) : ¬ builder.Holds p root := by
  intro hp
  rw [← linked.parent_iff, hroot] at hp
  cases hp

theorem unique {other : List NodeId} (hn : builder.Descends root n above)
    (hother : builder.Descends root n other) : above = other := by
  induction hn generalizing other with
  | root =>
    cases hother with
    | root => rfl
    | child _ h => exact absurd h (not_holds_root linked hroot _)
  | @child p c above hp h ih =>
    cases hother with
    | root => exact absurd h (not_holds_root linked hroot _)
    | @child q _ other hq h' =>
      have hpq : p = q := linked.holder_unique h h'
      subst hpq
      rw [ih hq]

theorem not_mem (hn : builder.Descends root n above) : n ∉ above := by
  intro hmem
  obtain ⟨path, hpath, hlt⟩ := hn.of_mem hmem
  rw [unique linked hroot hn hpath] at hlt
  exact Nat.lt_irrefl _ hlt

theorem nodup (hn : builder.Descends root n above) : (n :: above).Nodup := by
  induction hn with
  | root => exact List.pairwise_singleton _ _
  | @child p c above hp h ih =>
    exact List.nodup_cons.2 ⟨not_mem linked hroot (.child hp h), ih⟩

theorem eq_of_common {d : NodeId} (hc : builder.Descends root c above)
    (hd : builder.Descends root d above) (hcn : Relation.ReflTransGen builder.Holds c n)
    (hdn : Relation.ReflTransGen builder.Holds d n) : c = d := by
  obtain ⟨path, _, hpath, heq⟩ := hc.through hcn
  obtain ⟨path', _, hpath', heq'⟩ := hd.through hdn
  rw [← unique linked hroot hpath hpath', heq] at heq'
  exact (List.cons.inj (List.append_inj' heq' rfl).2).1

/-- The nodes of one way down are different nodes of the builder. -/
theorem length_lt {slot : Slot} (hknown : builder.slot? root = some slot)
    (hn : builder.Descends root n above) : above.length < builder.slots.size := by
  have hbound : ∀ m ∈ n :: above, m < builder.slots.size := by
    have hlt : ∀ {m : NodeId} {held : Slot}, builder.slot? m = some held →
        m < builder.slots.size := fun h => (Array.getElem?_eq_some_iff.1 h).1
    have hdescends : ∀ {m path}, builder.Descends root m path → m < builder.slots.size := by
      intro m path hm
      cases hm with
      | root => exact hlt hknown
      | child _ h =>
        obtain ⟨_, hheld, _⟩ := linked.known h
        exact hlt hheld
    intro m hm
    rcases List.mem_cons.1 hm with rfl | hm
    · exact hdescends hn
    · obtain ⟨_, hpath, _⟩ := hn.of_mem hm
      exact hdescends hpath
  have hsub : n :: above ⊆ List.range builder.slots.size := fun m hm =>
    List.mem_range.2 (hbound m hm)
  have hlen := ((nodup linked hroot hn).subperm hsub).length_le
  rw [List.length_range] at hlen
  exact hlen

end Linked
end Descends
end Builder
end ObjectNavigation
