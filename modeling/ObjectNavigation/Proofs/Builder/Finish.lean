import ObjectNavigation.Proofs.Builder.Depiction
import ObjectNavigation.Proofs.Node.Order

/-!
Finishing a tree. The nodes to be visited stand in a stack, and the children of the one that is
visited come on top of it. No record is kept of what has been visited. Below a root without a
parent this ends nevertheless, in what `finish` gives: the error of the first node that is unknown
or not closed, or the tree with its nodes in the order of the visit.
-/

namespace ObjectNavigation
namespace Builder

/-- Visiting the nodes of a stack, its top first: the nodes in the order of the visit, or what is
wrong with the first of them that is not fit for a tree. -/
inductive Visits (builder : Builder) : List NodeId → Except BuildError (List NodeId) → Prop where
  | done : Visits builder [] (.ok [])
  | unknown {id : NodeId} {rest : List NodeId} (h : builder.slot? id = none) :
      Visits builder (id :: rest) (.error (.unknownNode id))
  | unclosed {id : NodeId} {rest : List NodeId} {slot : Slot} (found : builder.slot? id = some slot)
      (h : slot.stage ≠ .closed) : Visits builder (id :: rest) (.error (.unclosed id))
  | visit {id : NodeId} {rest : List NodeId} {slot : Slot}
      {outcome : Except BuildError (List NodeId)} (found : builder.slot? id = some slot)
      (h : slot.stage = .closed)
      (next : Visits builder (slot.children.filterMap (fun child => child) ++ rest) outcome) :
      Visits builder (id :: rest) (outcome.map (id :: ·))

variable {builder : Builder}

theorem map_append (outcome : Except BuildError (List NodeId)) (first last : List NodeId) :
    (outcome.map (last ++ ·)).map (first ++ ·) = outcome.map (first ++ last ++ ·) := by
  cases outcome with
  | error e => rfl
  | ok order => simp only [Except.map, List.append_assoc]

theorem Visits.unique {stack : List NodeId} {outcome other : Except BuildError (List NodeId)}
    (h : builder.Visits stack outcome) (hother : builder.Visits stack other) : outcome = other := by
  -- The node that is visited next decides which rule applies.
  induction h generalizing other with
  | done =>
    cases hother
    rfl
  | unknown h =>
    cases hother with
    | unknown => rfl
    | unclosed found => rw [h] at found; cases found
    | visit found => rw [h] at found; cases found
  | unclosed found h =>
    cases hother with
    | unknown hnone => rw [hnone] at found; cases found
    | unclosed => rfl
    | visit found' h' =>
      rw [found'] at found
      cases found
      exact absurd h' h
  | visit found h _ ih =>
    cases hother with
    | unknown hnone => rw [hnone] at found; cases found
    | unclosed found' h' =>
      rw [found'] at found
      cases found
      exact absurd h h'
    | visit found' h' next =>
      rw [found'] at found
      cases found
      rw [ih next]

theorem Visits.not_closed {stack : List NodeId} {e : BuildError}
    (h : builder.Visits stack (.error e)) :
    ∃ s ∈ stack, ∃ n, Relation.ReflTransGen builder.Holds s n ∧
      (builder.slot? n).map Slot.stage ≠ some .closed := by
  generalize houtcome : Except.error e = outcome at h
  induction h with
  | done => cases houtcome
  | @unknown id rest h => exact ⟨id, List.mem_cons_self, id, .refl, by simp [h]⟩
  | @unclosed id rest slot found h => exact ⟨id, List.mem_cons_self, id, .refl, by simp [found, h]⟩
  | @visit id rest slot outcome found h _ ih =>
    cases outcome with
    | ok order => cases houtcome
    | error e' =>
      cases houtcome
      obtain ⟨s, hs, n, hsn, hn⟩ := ih rfl
      rcases List.mem_append.1 hs with hs | hs
      · have hholds : builder.Holds id s := holds_iff_slot.2 ⟨slot, found, by simpa using hs⟩
        exact ⟨id, List.mem_cons_self, n, .head hholds hsn, hn⟩
      · exact ⟨s, List.mem_cons_of_mem _ hs, n, hsn, hn⟩

mutual

theorem Depicts.visits {tree : Tree} {id : NodeId} {order rest : List NodeId}
    {outcome : Except BuildError (List NodeId)} (h : builder.Depicts tree id order)
    (hrest : builder.Visits rest outcome) :
    builder.Visits (id :: rest) (outcome.map (order ++ ·)) := by
  match tree with
  | .node body slots =>
    obtain ⟨held, below, hheld, hclosed, _, hslots, rfl⟩ := h
    have hvisit := Visits.visit hheld hclosed (hslots.visits hrest)
    rwa [show (id :: ·) = ([id] ++ ·) from rfl, map_append] at hvisit

theorem DepictsSlots.visits {slots : List (Option Tree)} {ids : List (Option NodeId)}
    {order rest : List NodeId} {outcome : Except BuildError (List NodeId)}
    (h : builder.DepictsSlots slots ids order) (hrest : builder.Visits rest outcome) :
    builder.Visits (ids.filterMap (fun child => child) ++ rest) (outcome.map (order ++ ·)) := by
  match slots with
  | [] =>
    obtain ⟨rfl, rfl⟩ := h
    cases outcome <;> exact hrest
  | none :: others =>
    obtain ⟨ids, rfl, h⟩ := h
    exact h.visits hrest
  | some child :: others =>
    obtain ⟨id, ids, first, last, rfl, hchild, hothers, rfl⟩ := h
    rw [← map_append]
    exact hchild.visits (hothers.visits hrest)

end

/-! ### What collecting comes to -/

/-- How collecting below `id` comes out: with the tree that the node depicts, or with the error of
the visit. -/
def Collects (builder : Builder) (id : NodeId) : Except BuildError Tree → Prop
  | .ok tree => ∃ order, builder.Depicts tree id order
  | .error e => ∀ rest, builder.Visits (id :: rest) (.error e)

theorem collects_slots {depth : Nat} {ids : List (Option NodeId)}
    (hcollect : ∀ c, some c ∈ ids → builder.Collects c (builder.collect depth c)) :
    match ids.mapM (fun slot => slot.mapM (builder.collect depth)) with
    | .ok slots => ∃ order, builder.DepictsSlots slots ids order
    | .error e => ∀ rest,
        builder.Visits (ids.filterMap (fun child => child) ++ rest) (.error e) := by
  induction ids with
  | nil => exact ⟨[], rfl, rfl⟩
  | cons slot rest ih =>
    have hrest := ih fun c hc => hcollect c (List.mem_cons_of_mem _ hc)
    rw [List.mapM_cons]
    cases slot with
    | none =>
      cases htail : rest.mapM (fun slot => slot.mapM (builder.collect depth)) with
      | error e =>
        rw [htail] at hrest
        exact hrest
      | ok slots =>
        rw [htail] at hrest
        obtain ⟨order, horder⟩ := hrest
        exact ⟨order, rest, rfl, horder⟩
    | some c =>
      have hc := hcollect c List.mem_cons_self
      rw [Option.mapM_some]
      cases hfirst : builder.collect depth c with
      | error e =>
        rw [hfirst] at hc
        exact fun others => hc _
      | ok tree =>
        rw [hfirst] at hc
        obtain ⟨first, hfirst⟩ := hc
        cases htail : rest.mapM (fun slot => slot.mapM (builder.collect depth)) with
        | error e =>
          rw [htail] at hrest
          exact fun others => hfirst.visits (hrest others)
        | ok slots =>
          rw [htail] at hrest
          obtain ⟨last, hlast⟩ := hrest
          exact ⟨first ++ last, c, rest, first, last, rfl, hfirst, hlast, rfl⟩

section Root
variable {root : NodeId} {held : Slot} (linked : builder.Linked)
  (hroot : builder.parent? root = none) (hknown : builder.slot? root = some held)
include linked hroot hknown

theorem collects_of_descends {depth : Nat} {id : NodeId} {above : List NodeId}
    (hid : builder.Descends root id above) (hdepth : builder.slots.size ≤ above.length + depth) :
    builder.Collects id (builder.collect depth id) := by
  induction depth generalizing id above with
  | zero =>
    have hlt := hid.length_lt linked hroot hknown
    omega
  | succ depth ih =>
    unfold collect
    cases hslot : builder.slot? id with
    | none => exact fun rest => .unknown hslot
    | some slot =>
      dsimp only
      split
      next hstage => exact fun rest => .unclosed hslot hstage
      next hstage =>
        have hclosed : slot.stage = .closed := not_not.1 hstage
        have hbelow : ∀ c, some c ∈ slot.children →
            builder.Collects c (builder.collect depth c) := fun c hc =>
          ih (.child hid (holds_iff_slot.2 ⟨slot, hslot, hc⟩)) (by rw [List.length_cons]; omega)
        have hslots := collects_slots hbelow
        cases hcollect : slot.children.mapM (fun child => child.mapM (builder.collect depth)) with
        | error e =>
          rw [hcollect] at hslots
          exact fun rest => .visit hslot hclosed (hslots rest)
        | ok slots =>
          rw [hcollect] at hslots
          obtain ⟨below, hbelow⟩ := hslots
          exact ⟨id :: below, slot, below, hslot, hclosed, rfl, hbelow, rfl⟩

theorem collects_finish : builder.Collects root (builder.finish root) := by
  unfold finish
  rw [hknown]
  have hparent : held.parent = none := by simpa [parent?, hknown] using hroot
  simp only [hparent]
  exact collects_of_descends linked hroot hknown .root (by simp)

end Root

theorem finish_eq_ok_iff (linked : builder.Linked) {root : NodeId} :
    (∃ tree, builder.finish root = .ok tree) ↔
      (∃ held, builder.slot? root = some held ∧ held.parent = none) ∧
        ∀ n, Relation.ReflTransGen builder.Holds root n →
          (builder.slot? n).map Slot.stage = some .closed := by
  constructor
  · rintro ⟨tree, htree⟩
    obtain ⟨held, hknown, hparent⟩ : ∃ held, builder.slot? root = some held ∧
        held.parent = none := by
      unfold finish at htree
      split at htree
      next => cases htree
      next held hknown =>
        split at htree
        next => cases htree
        next hparent => exact ⟨held, hknown, hparent⟩
    have hcollects := collects_finish linked (by simp [parent?, hknown, hparent]) hknown
    rw [htree] at hcollects
    obtain ⟨order, horder⟩ := hcollects
    refine ⟨⟨held, hknown, hparent⟩, fun n hn => ?_⟩
    obtain ⟨slot, hslot, hclosed⟩ := horder.closed ((horder.mem_iff n).2 hn)
    rw [hslot, Option.map_some, hclosed]
  · rintro ⟨⟨held, hknown, hparent⟩, hclosed⟩
    have hcollects := collects_finish linked (by simp [parent?, hknown, hparent]) hknown
    cases hfinish : builder.finish root with
    | ok tree => exact ⟨tree, rfl⟩
    | error e =>
      rw [hfinish] at hcollects
      -- A failure comes of a node on the way down that is not there or not closed.
      obtain ⟨s, hs, n, hsn, hn⟩ := (hcollects []).not_closed
      rw [List.mem_singleton.1 hs] at hsn
      exact absurd (hclosed n hsn) hn

theorem visits_finish (linked : builder.Linked) {root : NodeId}
    (hroot : builder.parent? root = none) :
    ∃ outcome, builder.Visits [root] outcome ∧
      (builder.finish root).map (fun _ => ()) = outcome.map fun _ => () := by
  cases hknown : builder.slot? root with
  | none =>
    refine ⟨_, .unknown hknown, ?_⟩
    unfold finish
    rw [hknown]
    rfl
  | some held =>
    have hcollects := collects_finish linked hroot hknown
    cases hfinish : builder.finish root with
    | error e =>
      rw [hfinish] at hcollects
      exact ⟨_, hcollects [], rfl⟩
    | ok tree =>
      rw [hfinish] at hcollects
      obtain ⟨order, horder⟩ := hcollects
      exact ⟨_, horder.visits .done, rfl⟩

theorem getElem?_idxOf {order : List NodeId} (hnodup : order.Nodup) {k : Nat} {n : NodeId}
    (h : order[k]? = some n) : order.idxOf n = k := by
  obtain ⟨hlt, rfl⟩ := List.getElem?_eq_some_iff.1 h
  exact hnodup.idxOf_getElem k hlt

theorem finish_renames (linked : builder.Linked) {root : NodeId} {tree : Tree}
    (h : builder.finish root = .ok tree) :
    ∃ order, builder.Visits [root] (.ok order) ∧ order.Nodup ∧
      (∀ n, n ∈ order ↔ Relation.ReflTransGen builder.Holds root n) ∧
      List.Forall₂ (builder.Renames (order.idxOf ·)) order tree.places := by
  obtain ⟨⟨held, hknown, hparent⟩, _⟩ := (finish_eq_ok_iff linked).1 ⟨tree, h⟩
  have hroot : builder.parent? root = none := by simp [parent?, hknown, hparent]
  have hcollects := collects_finish linked hroot hknown
  rw [h] at hcollects
  obtain ⟨order, horder⟩ := hcollects
  have hvisits : builder.Visits [root] (.ok order) := by
    have hvisits := horder.visits .done
    simpa only [Except.map, List.append_nil] using hvisits
  have hnodup := Depicts.nodup linked hroot horder .root
  refine ⟨order, hvisits, hnodup, horder.mem_iff, horder.renames linked ?_ ?_⟩
  · intro k n hn
    rw [getElem?_idxOf hnodup hn, Nat.zero_add]
  · rw [hroot]
    rfl

/-- After any calls on a builder, a tree is finished exactly if its root has no parent and all below
it is closed; the visit ends, and the nodes of the tree are those it meets, in its order. -/
theorem finish_preorder (steps : List Step) (root : NodeId) :
    let builder := steps.foldl Builder.after ∅
    ((∃ tree, builder.finish root = .ok tree) ↔
      (∃ held, builder.slot? root = some held ∧ held.parent = none) ∧
        ∀ n, Relation.ReflTransGen builder.Holds root n →
          (builder.slot? n).map Slot.stage = some .closed) ∧
    (builder.parent? root = none → ∃ outcome,
      (∀ other, builder.Visits [root] other ↔ other = outcome) ∧
        (builder.finish root).map (fun _ => ()) = outcome.map fun _ => ()) ∧
    ∀ tree, builder.finish root = .ok tree → tree.Ordered ∧
      ∃ order, builder.Visits [root] (.ok order) ∧ order.Nodup ∧
        (∀ n, n ∈ order ↔ Relation.ReflTransGen builder.Holds root n) ∧
        List.Forall₂ (builder.Renames (order.idxOf ·)) order tree.places := by
  intro builder
  have linked : builder.Linked := linked_foldl steps Linked.empty
  refine ⟨finish_eq_ok_iff linked, fun hroot => ?_, fun tree htree => ?_⟩
  · obtain ⟨outcome, hvisits, hfinish⟩ := visits_finish linked hroot
    refine ⟨outcome, fun other => ⟨fun hother => hother.unique hvisits, ?_⟩, hfinish⟩
    rintro rfl
    exact hvisits
  · exact ⟨tree.ordered, finish_renames linked htree⟩

/-- Empty slots stay, and a node that was never attached is left out. -/
example : ((([.node .chain, .node .list, .leaf (.property "x"), .open 1, .attach 1 2 2, .close 1] :
    List Step).foldl Builder.after ∅).finish 1).toOption.map (·.places.map Tree.Place.children) =
      some [[none, none, some 1], []] := by rfl

end Builder
end ObjectNavigation
