import ObjectNavigation.Proofs.Builder.Flat
import ObjectNavigation.Proofs.Builder.Listing

/-!
What closing a node that flattens does to every node of the builder, and to the order of those below
it. Its kin are its children of its kind: their slots come in the place of theirs, holes included,
and they are left with nothing, whatever stage they are in. That they are taken out of the list of
what is below the node is all that happens to it (`close_absorbs`), also where the node itself is in
a slot of its kin.
-/

namespace ObjectNavigation
namespace Builder
variable {builder built : Builder} {id : NodeId}

def kin (builder : Builder) (id : NodeId) : List NodeId :=
  (builder.children id).filterMap fun child =>
    child.filter fun c => builder.kind? c = builder.kind? id

/-- What comes in place of a slot of a node that takes over the slots of its kin. -/
def inPlaceOf (builder : Builder) (id : NodeId) : Option NodeId → List (Option NodeId)
  | none => [none]
  | some c => if builder.kind? c = builder.kind? id then builder.children c else [some c]

def joined (builder : Builder) (id : NodeId) : List (Option NodeId) :=
  (builder.children id).flatMap (builder.inPlaceOf id)

theorem mem_kin_iff {a : NodeId} : a ∈ builder.kin id ↔ builder.Nests id a := by
  rw [kin, List.mem_filterMap]
  constructor
  · rintro ⟨child, hchild, heq⟩
    obtain ⟨rfl, hkind⟩ := Option.filter_eq_some_iff.1 heq
    exact ⟨hchild, of_decide_eq_true hkind⟩
  · rintro ⟨hholds, hkind⟩
    exact ⟨some a, hholds, Option.filter_eq_some_iff.2 ⟨rfl, decide_eq_true hkind⟩⟩

theorem mem_joined_iff {n : NodeId} : some n ∈ builder.joined id ↔
    (∃ a ∈ builder.kin id, builder.Holds a n) ∨ builder.Holds id n ∧ n ∉ builder.kin id := by
  rw [joined, List.mem_flatMap]
  constructor
  · rintro ⟨child, hchild, hn⟩
    cases child with
    | none => cases List.mem_singleton.1 hn
    | some c =>
      rw [inPlaceOf] at hn
      split at hn
      next hkind => exact .inl ⟨c, mem_kin_iff.2 ⟨hchild, hkind⟩, hn⟩
      next hkind =>
        cases List.mem_singleton.1 hn
        exact .inr ⟨hchild, fun hkin => hkind (mem_kin_iff.1 hkin).kind⟩
  · rintro (⟨a, ha, hn⟩ | ⟨hn, hkin⟩)
    · obtain ⟨hholds, hkind⟩ := mem_kin_iff.1 ha
      refine ⟨some a, hholds, ?_⟩
      rw [inPlaceOf, if_pos hkind]
      exact hn
    · refine ⟨some n, hn, ?_⟩
      rw [inPlaceOf, if_neg fun hkind => hkin (mem_kin_iff.2 ⟨hn, hkind⟩)]
      exact List.mem_singleton_self _

theorem joined_of_not_kin (h : ∀ a, a ∉ builder.kin id) :
    builder.joined id = builder.children id := by
  have hsingle : ∀ child ∈ builder.children id, builder.inPlaceOf id child = [child] := by
    intro child hchild
    cases child with
    | none => rfl
    | some c => exact if_neg fun hkind => h c (mem_kin_iff.2 ⟨hchild, hkind⟩)
  rw [joined, List.flatMap_congr hsingle, List.flatMap_singleton']

/-- What closing a node does that takes over the slots of its kin. -/
structure Absorbs (builder built : Builder) (id : NodeId) : Prop where
  closed : built.IsClosed id
  body : built.body? id = builder.body? id
  /-- The slots of its kin come where these were, and all other slots stay. -/
  children : built.children id = (builder.children id).flatMap (builder.inPlaceOf id)
  /-- Its kin are left with nothing. -/
  left : ∀ a ∈ builder.kin id,
    built.slot? a = (builder.slot? a).map fun slot => { slot with parent := none, children := [] }
  /-- What was in a slot of its kin has a new parent. -/
  parent : ∀ a ∈ builder.kin id, ∀ c, builder.Holds a c → built.parent? c = some id
  moved : ∀ a ∈ builder.kin id, ∀ c, builder.Holds a c → c ≠ id →
    built.slot? c = (builder.slot? c).map fun slot => { slot with parent := some id }
  /-- The node itself may have been in such a slot; if it was not, its parent stays. -/
  unmoved : (∀ a ∈ builder.kin id, ¬ builder.Holds a id) → built.parent? id = builder.parent? id
  others : ∀ n, n ≠ id → n ∉ builder.kin id → (∀ a ∈ builder.kin id, ¬ builder.Holds a n) →
    built.slot? n = builder.slot? n

section Close
variable {slot : Slot}

theorem kind?_of_slot? (hid : builder.slot? id = some slot) :
    builder.kind? id = some slot.kind := by
  rw [kind?, body?, hid]
  rfl

theorem Linked.parent_of_holds (linked : builder.Linked) {p c : NodeId} (h : builder.Holds p c)
    (hc : builder.slot? c = some slot) : slot.parent = some p := by
  obtain ⟨held, hheld, hparent⟩ := linked.known h
  rw [hc] at hheld
  cases hheld
  exact hparent

theorem expansion_eq (hid : builder.slot? id = some slot) (child : Option NodeId) :
    builder.expansion slot.kind child = builder.inPlaceOf id child := by
  have hkind := kind?_of_slot? hid
  cases child with
  | none => rfl
  | some c =>
    cases hc : builder.absorbed? slot.kind (some c) with
    | some a =>
      obtain ⟨heq, held, hheld, hsame⟩ := absorbed?_eq_some_iff.1 hc
      cases heq
      have hkin : builder.kind? c = builder.kind? id := by rw [kind?_of_slot? hheld, hsame, hkind]
      rw [expansion, hc, inPlaceOf, if_pos hkin]
    | none =>
      have hkin : builder.kind? c ≠ builder.kind? id := by
        intro heq
        rw [hkind] at heq
        obtain ⟨body, hbody, hsame⟩ := Option.map_eq_some_iff.1 heq
        obtain ⟨held, hheld, rfl⟩ := body?_eq_some_iff.1 hbody
        have habsorbed := absorbed?_eq_some_iff.2 ⟨rfl, held, hheld, hsame⟩
        rw [hc] at habsorbed
        cases habsorbed
      rw [expansion, hc, inPlaceOf, if_neg hkin]

theorem slot?_restage (builder : Builder) (id n : NodeId) (stage : Stage) :
    (builder.restage id stage).slot? n =
      if n = id then (builder.slot? n).map fun slot => { slot with stage }
      else builder.slot? n :=
  slot?_modify builder id n _

theorem slot?_flatten (linked : builder.Linked) (hid : builder.slot? id = some slot)
    (h : builder.flatten id = .ok built) (n : NodeId) :
    built.slot? n = (builder.slot? n).map fun held =>
      { held with
        parent :=
          if some n ∈ builder.joined id then some id
          else if n ∈ builder.kin id then none else held.parent
        children :=
          if n = id then builder.joined id
          else if n ∈ builder.kin id then [] else held.children } := by
  have hchildren : builder.children id = slot.children := by rw [children, hid]; rfl
  have hkin : ∀ a, a ∈ builder.absorbed slot.kind slot.children ↔ a ∈ builder.kin id := fun a =>
    (mem_absorbed_iff_nests hid).trans mem_kin_iff.symm
  have hjoined : builder.spliced slot.kind slot.children = builder.joined id := by
    rw [spliced, joined, hchildren]
    exact List.flatMap_congr fun child _ => expansion_eq hid child
  by_cases hnone : builder.absorbed slot.kind slot.children = []
  · -- nothing is absorbed, and the children have this parent already
    rw [flatten_eq hid, if_pos hnone] at h
    cases h
    have hnokin : ∀ a, a ∉ builder.kin id := fun a ha => by
      rw [← hkin, hnone] at ha
      cases ha
    have hsame : builder.joined id = builder.children id := joined_of_not_kin hnokin
    simp only [hsame, if_neg (hnokin n)]
    cases hn : builder.slot? n with
    | none => rfl
    | some held =>
      have hparent : some n ∈ builder.children id → some id = held.parent := fun hmem =>
        (linked.parent_of_holds hmem hn).symm
      have hslots : n = id → builder.children id = held.children := by
        rintro rfl
        rw [children, hn]
        rfl
      rw [Option.map_some, ite_eq_right_iff.2 hparent, ite_eq_right_iff.2 hslots]
  · obtain ⟨built', hbuilt', splices⟩ := splices_flatten hid hnone
    rw [h] at hbuilt'
    cases hbuilt'
    simp only [splices.slot?, hjoined, hkin]

theorem slot?_close (linked : builder.Linked) (hid : builder.slot? id = some slot)
    (hopened : slot.stage = .opened) (hflattens : slot.body.flattens = true)
    (h : builder.close id = .ok built) (n : NodeId) :
    built.slot? n = (builder.slot? n).map fun held =>
      { held with
        stage := if n = id then .closed else held.stage
        parent :=
          if some n ∈ builder.joined id then some id
          else if n ∈ builder.kin id then none else held.parent
        children :=
          if n = id then builder.joined id
          else if n ∈ builder.kin id then [] else held.children } := by
  have hmarked : (builder.restage id .closed).Linked := linked.restage hid (by simp [hopened])
  have hfound : (builder.restage id .closed).slot? id = some { slot with stage := .closed } := by
    rw [slot?_restage, if_pos rfl, hid]
    rfl
  -- The mark changes neither kinds nor children, so the same nodes are absorbed as before it.
  have hkinds : ∀ n, (builder.restage id .closed).kind? n = builder.kind? n := fun n =>
    congrArg (Option.map Body.kind) (builder.body?_restage id .closed n)
  have hchildren := builder.children_restage id .closed
  have hinPlace : (builder.restage id .closed).inPlaceOf id = builder.inPlaceOf id := by
    funext child
    cases child with
    | none => rfl
    | some c => simp only [inPlaceOf, hkinds, hchildren]
  have hkin : (builder.restage id .closed).kin id = builder.kin id := by
    simp only [kin, hkinds, hchildren]
  have hjoined : (builder.restage id .closed).joined id = builder.joined id := by
    rw [joined, hinPlace, hchildren, joined]
  have hflatten : (builder.restage id .closed).flatten id = .ok built := by
    simp only [close, hid, hopened, hflattens, if_true] at h
    exact h
  rw [slot?_flatten hmarked hfound hflatten, hkin, hjoined, slot?_restage]
  cases builder.slot? n with
  | none => simp
  | some held =>
    by_cases hn : n = id
    · simp only [if_pos hn]
      rfl
    · simp only [if_neg hn]

theorem Linked.not_mem_joined_of_kin (linked : builder.Linked) (hself : ¬ builder.Holds id id)
    {a : NodeId} (ha : a ∈ builder.kin id) : some a ∉ builder.joined id := by
  intro hmem
  rcases mem_joined_iff.1 hmem with ⟨b, hb, hba⟩ | ⟨_, hnot⟩
  · have heq := linked.holder_unique hba (mem_kin_iff.1 ha).holds
    exact hself (heq ▸ (mem_kin_iff.1 hb).holds)
  · exact hnot ha

theorem absorbs_of_close (linked : builder.Linked) (hid : builder.slot? id = some slot)
    (hopened : slot.stage = .opened) (hflattens : slot.body.flattens = true)
    (h : builder.close id = .ok built) : Absorbs builder built id := by
  have hslot := slot?_close linked hid hopened hflattens h
  -- An open node is not among its own children, so it is none of its kin.
  have hself : ¬ builder.Holds id id := linked.not_holds_self hid (by simp [hopened])
  have hout : id ∉ builder.kin id := fun hkin => hself (mem_kin_iff.1 hkin).holds
  have hapart : ∀ a ∈ builder.kin id, some a ∉ builder.joined id := fun a ha =>
    linked.not_mem_joined_of_kin hself ha
  have hjoins : ∀ a ∈ builder.kin id, ∀ c, builder.Holds a c → some c ∈ builder.joined id :=
    fun a ha c hc => mem_joined_iff.2 (.inl ⟨a, ha, hc⟩)
  constructor
  case closed => simp [IsClosed, hslot, hid]
  case body => simp [body?, hslot, hid]
  case children => simp [children, hslot, hid, joined]
  case left =>
    intro a ha
    have hne : a ≠ id := fun heq => hout (heq ▸ ha)
    simp only [hslot, if_neg (hapart a ha), if_pos ha, if_neg hne]
  case parent =>
    intro a ha c hc
    obtain ⟨held, hheld, _⟩ := linked.known hc
    simp [parent?, hslot, hheld, hjoins a ha c hc]
  case moved =>
    intro a ha c hc hne
    have hnot : c ∉ builder.kin id := fun hkin => hapart c hkin (hjoins a ha c hc)
    simp only [hslot, if_pos (hjoins a ha c hc), if_neg hne, if_neg hnot]
  case unmoved =>
    intro hnone
    have hnot : some id ∉ builder.joined id := by
      intro hmem
      rcases mem_joined_iff.1 hmem with ⟨a, ha, hc⟩ | ⟨hc, _⟩
      · exact hnone a ha hc
      · exact hself hc
    simp [parent?, hslot, hid, hnot, hout]
  case others =>
    intro n hne hnot hnone
    rw [hslot]
    simp only [if_neg hne, if_neg hnot]
    cases hn : builder.slot? n with
    | none => rfl
    | some held =>
      have hparent : some n ∈ builder.joined id → some id = held.parent := by
        intro hmem
        rcases mem_joined_iff.1 hmem with ⟨a, ha, hc⟩ | ⟨hholds, _⟩
        · exact absurd hc (hnone a ha)
        · exact (linked.parent_of_holds hholds hn).symm
      rw [Option.map_some, ite_eq_right_iff.2 hparent]

end Close

/-! ### What is below the node afterwards -/

namespace Absorbs
variable (absorbs : Absorbs builder built id)
include absorbs

theorem children_of_ne {n : NodeId} (hne : n ≠ id) (hnot : n ∉ builder.kin id) :
    built.children n = builder.children n := by
  by_cases hmoved : ∃ a ∈ builder.kin id, builder.Holds a n
  · obtain ⟨a, ha, hn⟩ := hmoved
    rw [Builder.children, absorbs.moved a ha n hn hne, Option.map_map]
    rfl
  · have hnone : ∀ a ∈ builder.kin id, ¬ builder.Holds a n := fun a ha hn => hmoved ⟨a, ha, hn⟩
    rw [Builder.children, absorbs.others n hne hnot hnone]
    rfl

variable (linked : builder.Linked)
include linked

/-- Below the slots of its kin nothing changes, and there is none of its kin. -/
theorem lists_of_not_kin {slots : List (Option NodeId)} {order : List NodeId}
    (h : builder.Lists id slots order) (hslots : ∀ c, some c ∈ slots → c ∉ builder.kin id) :
    built.Lists id slots order ∧ ∀ n ∈ order, n ∉ builder.kin id := by
  induction h with
  | nil => exact ⟨.nil, nofun⟩
  | hole _ ih =>
    obtain ⟨hrest, hnot⟩ := ih fun c hc => hslots c (List.mem_cons_of_mem _ hc)
    exact ⟨.hole hrest, hnot⟩
  | again _ ih =>
    obtain ⟨hrest, hnot⟩ := ih fun c hc => hslots c (List.mem_cons_of_mem _ hc)
    exact ⟨.again hrest, List.forall_mem_cons.2 ⟨hslots id List.mem_cons_self, hnot⟩⟩
  | @child c _ _ _ hne _ _ ihinner ih =>
    obtain ⟨hrest, hnot⟩ := ih fun c hc => hslots c (List.mem_cons_of_mem _ hc)
    have hc := hslots c List.mem_cons_self
    -- The kin are in slots of the node itself, so `c` holds none of them.
    obtain ⟨hinner, hnotInner⟩ := ihinner fun d hd hkin =>
      hne (linked.holder_unique hd (mem_kin_iff.1 hkin).holds)
    refine ⟨.child hne ?_ hrest, ?_⟩
    · rwa [absorbs.children_of_ne hne hc]
    · exact List.forall_mem_append.2 ⟨List.forall_mem_cons.2 ⟨hc, hnotInner⟩, hnot⟩

/-- What is listed below the node is what was listed before but for its kin. -/
theorem lists_filter (hself : ¬ builder.Holds id id) {slots : List (Option NodeId)}
    {order : List NodeId} (h : builder.Lists id slots order)
    (hslots : ∀ c, some c ∈ slots → builder.Holds id c) :
    built.Lists id (slots.flatMap (builder.inPlaceOf id))
      (order.filter (· ∉ builder.kin id)) := by
  induction h with
  | nil => exact .nil
  | hole _ ih => exact .hole (ih fun c hc => hslots c (List.mem_cons_of_mem _ hc))
  | again => exact absurd (hslots id List.mem_cons_self) hself
  | @child c rest inner order hne hinner _ _ ih =>
    have hrest := ih fun c hc => hslots c (List.mem_cons_of_mem _ hc)
    have hbelow : ∀ d, some d ∈ builder.children c → d ∉ builder.kin id := fun d hd hkin =>
      hne (linked.holder_unique hd (mem_kin_iff.1 hkin).holds)
    obtain ⟨hkept, hnot⟩ := absorbs.lists_of_not_kin linked hinner hbelow
    have hall : inner.filter (· ∉ builder.kin id) = inner :=
      List.filter_eq_self.2 fun n hn => decide_eq_true (hnot n hn)
    rw [List.flatMap_cons, List.filter_append]
    refine Lists.append ?_ hrest
    by_cases hkin : c ∈ builder.kin id
    · rw [List.filter_cons_of_neg (by simpa using hkin), hall, inPlaceOf,
        if_pos (mem_kin_iff.1 hkin).kind]
      exact hkept
    · have hkind : builder.kind? c ≠ builder.kind? id := fun heq =>
        hkin (mem_kin_iff.2 ⟨hslots c List.mem_cons_self, heq⟩)
      rw [List.filter_cons_of_pos (by simpa using hkin), hall, inPlaceOf, if_neg hkind]
      have hchild := Lists.child hne (absorbs.children_of_ne hne hkin ▸ hkept) .nil
      rwa [List.append_nil] at hchild

end Absorbs

/-- Whatever calls there were, closing an open node that flattens puts the slots of its kin in their
place and leaves its kin with nothing. The nodes below it are the same in the same order, each once,
but for its kin. -/
theorem close_absorbs (steps : List Step) {id : NodeId} {slot : Slot}
    (hid : (steps.foldl Builder.after ∅).slot? id = some slot) (hopened : slot.stage = .opened)
    (hflattens : slot.body.flattens = true) :
    let builder := steps.foldl Builder.after ∅
    ∃ built, builder.close id = .ok built ∧ Absorbs builder built id ∧
      ∃ order, builder.Lists id (builder.children id) order ∧
        built.Lists id (built.children id) (order.filter (· ∉ builder.kin id)) ∧ order.Nodup ∧
        (∀ n, n ∈ order ↔ Relation.TransGen builder.Holds id n) ∧
        ∀ n, n ∈ order ∧ n ∉ builder.kin id ↔ Relation.TransGen built.Holds id n := by
  intro builder
  have linked : builder.Linked := linked_foldl steps Linked.empty
  have hself : ¬ builder.Holds id id := linked.not_holds_self hid (by simp [hopened])
  obtain ⟨built, hclose⟩ := exists_close hid hopened
  have absorbs := absorbs_of_close linked hid hopened hflattens hclose
  obtain ⟨order, horder⟩ := linked.exists_lists hid
  have hafter : built.Lists id (built.children id) (order.filter (· ∉ builder.kin id)) := by
    rw [absorbs.children]
    exact absorbs.lists_filter linked hself horder fun _ hc => hc
  refine ⟨built, hclose, absorbs, order, horder, hafter, horder.nodup linked,
    fun n => horder.mem_iff, fun n => ?_⟩
  rw [← hafter.mem_iff, List.mem_filter, decide_eq_true_iff]

/-- Three chains, the second closed in a slot of the first and the third still open in another. The
third has the first in a slot. -/
def chainsInCircle : List Step :=
  [.node .chain, .node .chain, .node .chain, .leaf (.property "a"), .leaf (.property "b"),
    .leaf (.property "c"), .open 0, .open 1, .open 2, .attach 1 3 1, .attach 2 4 0, .attach 0 1 0,
    .attach 0 5 2, .attach 0 2 3, .attach 2 0 1, .close 1]

theorem close_absorbs_circle :
    let builder := chainsInCircle.foldl Builder.after ∅
    ∃ slot, builder.slot? 0 = some slot ∧ slot.stage = .opened ∧ slot.body.flattens = true ∧
      slot.children = [some 1, none, some 5, some 2] ∧ ∃ built, builder.close 0 = .ok built ∧
        built.children 0 = [none, some 3, none, some 5, some 4, some 0] ∧
        built.children 2 = [] ∧ built.parent? 2 = none ∧ built.parent? 0 = some 0 ∧
        builder.Lists 0 (builder.children 0) [1, 3, 5, 2, 4, 0] ∧
        built.Lists 0 (built.children 0) [3, 5, 4, 0] := by
  intro builder
  obtain ⟨built, hclose, absorbs, order, horder, hafter, _⟩ :=
    @close_absorbs chainsInCircle 0 _ rfl rfl rfl
  have hleft := absorbs.left 2 (by decide)
  have hsecond : builder.Lists 0 (builder.children 1) [3] :=
    .hole (@Lists.child builder 0 3 [] [] [] (by decide) .nil .nil)
  have hthird : builder.Lists 0 (builder.children 2) [4, 0] :=
    @Lists.child builder 0 4 [some 0] [] [0] (by decide) .nil (.again .nil)
  have hrest : builder.Lists 0 [some 5, some 2] [5, 2, 4, 0] :=
    @Lists.child builder 0 5 _ [] _ (by decide) .nil
      (@Lists.child builder 0 2 [] _ [] (by decide) hthird .nil)
  have hlists : builder.Lists 0 (builder.children 0) [1, 3, 5, 2, 4, 0] :=
    @Lists.child builder 0 1 _ _ _ (by decide) hsecond (.hole hrest)
  cases horder.unique hlists
  refine ⟨_, rfl, rfl, rfl, rfl, built, hclose, absorbs.children, ?_, ?_, ?_, hlists, hafter⟩
  · rw [children, hleft]
    rfl
  · rw [parent?, hleft]
    rfl
  · exact absorbs.parent 2 (by decide) 0 (show some 0 ∈ [some 4, some 0] by decide)

end Builder
end ObjectNavigation
