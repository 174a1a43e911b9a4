import ObjectNavigation.Proofs.Builder.Effect

/-!
Links of a builder. Whatever calls are made on a builder, and whether they succeed or are refused,
the parent of a node is the node in one of whose slots it is, and a node is in one slot only.

Nodes can be attached in a circle, and closing a node of such a circle can make it a child of its
own. What keeps the splicing sound is that this happens to closed nodes only: a node that is still
open is not among its own children, so the children it absorbs are other nodes.
-/

namespace ObjectNavigation
namespace Builder

/-! ### The invariant -/

/-- Both directions of every link agree. -/
structure Linked (builder : Builder) : Prop where
  parent_iff : ∀ p c, builder.parent? c = some p ↔ builder.Holds p c
  distinct : ∀ p, Distinct (builder.children p)
  /-- Only a closed node can be its own child. -/
  unclosed : ∀ n slot, builder.slot? n = some slot → slot.stage ≠ .closed → slot.parent ≠ some n

namespace Linked
variable {builder built : Builder}

theorem not_holds_self (linked : builder.Linked) {n : NodeId} {slot : Slot}
    (hn : builder.slot? n = some slot) (hstage : slot.stage ≠ .closed) : ¬ builder.Holds n n := by
  intro hself
  obtain ⟨slot', hslot', hparent⟩ := parent?_eq_some_iff.1 ((linked.parent_iff n n).2 hself)
  have heq : slot = slot' := Option.some.inj (hn.symm.trans hslot')
  exact linked.unclosed n slot hn hstage (heq ▸ hparent)

theorem holder_unique (linked : builder.Linked) {p q c : NodeId} (hp : builder.Holds p c)
    (hq : builder.Holds q c) : p = q :=
  Option.some.inj (((linked.parent_iff p c).2 hp).symm.trans ((linked.parent_iff q c).2 hq))

theorem known (linked : builder.Linked) {p c : NodeId} (h : builder.Holds p c) :
    ∃ slot, builder.slot? c = some slot ∧ slot.parent = some p :=
  parent?_eq_some_iff.1 ((linked.parent_iff p c).2 h)

theorem empty : Linked ∅ where
  parent_iff p c := by simp [parent?, Holds, children, slot?, EmptyCollection.emptyCollection]
  distinct p := by simp [Distinct, children, slot?, EmptyCollection.emptyCollection]
  unclosed n slot hn := by simp [slot?, EmptyCollection.emptyCollection] at hn

theorem node (linked : builder.Linked) (body : Body) : (builder.node body).2.Linked := by
  have hchildren : ∀ p, (builder.node body).2.children p = builder.children p := by
    intro p
    simp only [children, slot?_node]
    split
    next h => subst h; simp [slot?_size]
    next => rfl
  have hparent : ∀ c, (builder.node body).2.parent? c = builder.parent? c := by
    intro c
    simp only [parent?, slot?_node]
    split
    next h => subst h; simp [slot?_size]
    next => rfl
  refine ⟨fun p c => ?_, fun p => ?_, fun n slot hn hstage => ?_⟩
  · rw [hparent, Holds, hchildren]
    exact linked.parent_iff p c
  · rw [hchildren]
    exact linked.distinct p
  · rw [slot?_node] at hn
    split at hn
    next => cases hn; simp
    next => exact linked.unclosed n slot hn hstage

theorem restage (linked : builder.Linked) {id : NodeId} {slot : Slot} {stage : Stage}
    (hid : builder.slot? id = some slot) (hstage : slot.stage ≠ .closed) :
    (builder.modify id fun slot => { slot with stage }).Linked := by
  have hchildren : ∀ p, (builder.modify id fun slot => { slot with stage }).children p =
      builder.children p := by
    intro p
    simp only [children, slot?_modify]
    split <;> simp [Function.comp_def]
  have hparent : ∀ c, (builder.modify id fun slot => { slot with stage }).parent? c =
      builder.parent? c := by
    intro c
    simp only [parent?, slot?_modify]
    split
    next =>
      rw [Option.bind_map]
      rfl
    next => rfl
  refine ⟨fun p c => ?_, fun p => ?_, fun n held hn hunclosed => ?_⟩
  · rw [hparent, Holds, hchildren]
    exact linked.parent_iff p c
  · rw [hchildren]
    exact linked.distinct p
  · rw [slot?_modify] at hn
    split at hn
    next heq =>
      subst heq
      rw [hid] at hn
      cases hn
      exact linked.unclosed _ slot hid hstage
    next => exact linked.unclosed n held hn hunclosed

theorem «open» (linked : builder.Linked) {id : NodeId} (h : builder.open id = .ok built) :
    built.Linked := by
  unfold Builder.open at h
  split at h
  next => cases h
  next slot hid =>
    split at h
    next => cases h
    next hstage =>
      cases h
      exact linked.restage hid hstage

/-! ### Attaching keeps the invariant -/

section Attach
variable {parent child : NodeId} {index : Nat} {holder : Slot}

theorem not_holds_free (linked : builder.Linked)
    (attaches : Attaches builder built parent child index holder) (p : NodeId) :
    ¬ builder.Holds p child := by
  intro hp
  obtain ⟨held, hheld, hfree⟩ := attaches.free
  obtain ⟨slot, hslot, hsome⟩ := linked.known hp
  rw [Option.some.inj (hslot.symm.trans hheld), hfree] at hsome
  cases hsome

theorem distinct_holder (linked : builder.Linked)
    (attaches : Attaches builder built parent child index holder) : Distinct holder.children := by
  have h := linked.distinct parent
  simpa [children, attaches.found] using h

theorem parent_iff_attach (linked : builder.Linked)
    (attaches : Attaches builder built parent child index holder) (p c : NodeId) :
    built.parent? c = some p ↔ built.Holds p c := by
  rw [attaches.parent?, attaches.holds_iff]
  by_cases hc : c = child
  · subst hc
    rw [if_pos rfl]
    constructor
    · intro he
      rw [if_pos (Option.some.inj he).symm]
      exact .inl rfl
    · intro hp
      split at hp
      next heq => rw [heq]
      next => exact absurd hp (linked.not_holds_free attaches p)
  · rw [if_neg hc]
    by_cases hd : holder.children[index]? = some (some c)
    · -- the node that is displaced is in no slot any more
      rw [if_pos hd]
      refine iff_of_false (by simp) fun hp => ?_
      split at hp
      next =>
        rcases hp with hp | ⟨i, hi, hp⟩
        · exact hc hp
        · exact hi (distinct_iff.1 (linked.distinct_holder attaches) i index c hp hd)
      next hpp => exact hpp (linked.holder_unique hp (attaches.holds_of_slot hd))
    · rw [if_neg hd, linked.parent_iff]
      split
      next hp =>
        subst hp
        constructor
        · intro hold
          obtain ⟨slot, hslot, hmem⟩ := holds_iff_slot.1 hold
          rw [attaches.found] at hslot
          cases hslot
          obtain ⟨i, hi⟩ := List.mem_iff_getElem?.1 hmem
          exact .inr ⟨i, fun heq => hd (heq ▸ hi), hi⟩
        · rintro (heq | ⟨i, _, hi⟩)
          · exact absurd heq hc
          · exact attaches.holds_of_slot hi
      next => exact Iff.rfl

theorem distinct_attach (linked : builder.Linked)
    (attaches : Attaches builder built parent child index holder) (p : NodeId) :
    Distinct (built.children p) := by
  rw [attaches.children]
  split
  next =>
    have hfree := linked.not_holds_free attaches parent
    refine distinct_iff.2 fun i j c hi hj => ?_
    rcases getElem?_place_eq_some hi with ⟨rfl, hc⟩ | ⟨_, hi⟩
    · rcases getElem?_place_eq_some hj with ⟨rfl, _⟩ | ⟨_, hj⟩
      · rfl
      · exact absurd (attaches.holds_of_slot hj) (hc ▸ hfree)
    · rcases getElem?_place_eq_some hj with ⟨_, hc⟩ | ⟨_, hj⟩
      · exact absurd (attaches.holds_of_slot hi) (hc ▸ hfree)
      · exact distinct_iff.1 (linked.distinct_holder attaches) i j c hi hj
  next => exact linked.distinct p

theorem attach (linked : builder.Linked) (h : builder.attach parent child index = .ok built) :
    built.Linked := by
  obtain ⟨holder, attaches⟩ := attaches_of_attach h
  refine ⟨linked.parent_iff_attach attaches, linked.distinct_attach attaches, ?_⟩
  intro n slot hn hstage
  rw [attaches.slot?] at hn
  obtain ⟨old, hold, rfl⟩ := Option.map_eq_some_iff.1 hn
  dsimp only at hstage ⊢
  split
  next hc => exact fun he => attaches.ne ((Option.some.inj he).trans hc)
  next =>
    split
    next => simp
    next => exact linked.unclosed n old hold hstage

end Attach

/-! ### Splicing keeps the invariant -/

section Splice
variable {id : NodeId} {slot : Slot}

theorem distinct_spliced (linked : builder.Linked) {kind : Kind} (hself : ¬ builder.Holds id id) :
    Distinct (builder.spliced kind (builder.children id)) := by
  refine List.pairwise_flatMap.2 ⟨fun s _ => ?_, ?_⟩
  · unfold expansion
    split
    next c _ => exact linked.distinct c
    next => exact List.pairwise_singleton _ _
  · refine (linked.distinct id).imp_of_mem fun {s t} hs ht hst x hx y hy => ?_
    cases x with
    | none => exact .inl rfl
    | some c =>
      refine .inr fun heq => ?_
      subst heq
      -- A node in two slots would have two holders, or `id` would be its own child.
      rcases mem_expansion_iff.1 hx with ⟨a, ha, hac⟩ | ⟨rfl, _⟩
      · have hsa := (absorbed?_eq_some_iff.1 ha).1
        rcases mem_expansion_iff.1 hy with ⟨b, hb, hbc⟩ | ⟨rfl, _⟩
        · have htb := (absorbed?_eq_some_iff.1 hb).1
          have hab := linked.holder_unique hac hbc
          rcases hst with hn | hne
          · exact absurd (hsa.symm.trans hn) (by simp)
          · exact hne (hsa.trans ((congrArg some hab).trans htb.symm))
        · have haid := linked.holder_unique hac ht
          exact hself (by rw [Holds, ← haid, ← hsa, haid]; exact hs)
      · rcases mem_expansion_iff.1 hy with ⟨b, hb, hbc⟩ | ⟨rfl, _⟩
        · have htb := (absorbed?_eq_some_iff.1 hb).1
          have hbid := linked.holder_unique hbc hs
          exact hself (by rw [Holds, ← hbid, ← htb, hbid]; exact ht)
        · rcases hst with hn | hne
          · cases hn
          · exact hne rfl

theorem holds_iff_of_splices (splices : Splices builder built id slot) {c : NodeId} :
    builder.Holds id c ↔ some c ∈ slot.children := by
  simp [Holds, children, splices.found]

theorem holder_of_spliced (splices : Splices builder built id slot) {c : NodeId}
    (hc : some c ∈ builder.spliced slot.kind slot.children) :
    ∃ p, builder.Holds p c ∧ (p = id ∨ p ∈ builder.absorbed slot.kind slot.children) := by
  rcases mem_spliced_iff.1 hc with ⟨a, ha, hac⟩ | ⟨hc, _⟩
  · exact ⟨a, hac, .inr ha⟩
  · exact ⟨id, (holds_iff_of_splices splices).2 hc, .inl rfl⟩

theorem holds_iff_of_mem_spliced (linked : builder.Linked)
    (splices : Splices builder built id slot) {c : NodeId}
    (hc : some c ∈ builder.spliced slot.kind slot.children) (p : NodeId) :
    built.Holds p c ↔ p = id := by
  obtain ⟨q, hq, hor⟩ := holder_of_spliced splices hc
  rw [splices.holds_iff]
  constructor
  · intro hp
    split at hp
    next heq => exact heq
    next hpid =>
      have hpq := linked.holder_unique hp.2 hq
      rcases hor with rfl | hqa
      · exact hpq
      · exact absurd (hpq ▸ hqa) hp.1
  · rintro rfl
    rw [if_pos rfl]
    exact hc

theorem not_holds_of_absorbed (linked : builder.Linked) (splices : Splices builder built id slot)
    {c : NodeId} (hc : some c ∉ builder.spliced slot.kind slot.children)
    (ha : c ∈ builder.absorbed slot.kind slot.children) (p : NodeId) : ¬ built.Holds p c := by
  have hid := (holds_iff_of_splices splices).2 (mem_absorbed_iff.1 ha).1
  rw [splices.holds_iff]
  intro hp
  split at hp
  next => exact hc hp
  next hpid => exact hpid (linked.holder_unique hp.2 hid)

theorem holds_iff_of_untouched (splices : Splices builder built id slot) {c : NodeId}
    (hc : some c ∉ builder.spliced slot.kind slot.children)
    (ha : c ∉ builder.absorbed slot.kind slot.children) (p : NodeId) :
    built.Holds p c ↔ builder.Holds p c := by
  rw [splices.holds_iff]
  split
  next hp =>
    subst hp
    refine iff_of_false hc fun hp => hc ?_
    exact mem_spliced_iff.2 (.inr ⟨(holds_iff_of_splices splices).1 hp, ha⟩)
  next =>
    refine ⟨fun hp => hp.2, fun hp => ⟨fun hpa => hc ?_, hp⟩⟩
    exact mem_spliced_iff.2 (.inl ⟨p, hpa, hp⟩)

theorem parent_iff_splice (linked : builder.Linked) (splices : Splices builder built id slot)
    (p c : NodeId) : built.parent? c = some p ↔ built.Holds p c := by
  cases hknown : builder.slot? c with
  | none =>
    -- a node that was never created is in no slot
    have hnot : ∀ q, ¬ builder.Holds q c := by
      intro q hq
      obtain ⟨_, hheld, _⟩ := linked.known hq
      rw [hknown] at hheld
      cases hheld
    refine iff_of_false (by simp [parent?, splices.slot?, hknown]) fun hp => ?_
    rw [splices.holds_iff] at hp
    split at hp
    next =>
      obtain ⟨q, hq, _⟩ := holder_of_spliced splices hp
      exact hnot q hq
    next => exact hnot p hp.2
  | some held =>
    rw [splices.parent? hknown]
    by_cases hc : some c ∈ builder.spliced slot.kind slot.children
    · rw [if_pos hc, linked.holds_iff_of_mem_spliced splices hc]
      exact ⟨fun he => (Option.some.inj he).symm, fun hp => congrArg some hp.symm⟩
    · rw [if_neg hc]
      by_cases ha : c ∈ builder.absorbed slot.kind slot.children
      · rw [if_pos ha]
        exact iff_of_false (by simp) (linked.not_holds_of_absorbed splices hc ha p)
      · rw [if_neg ha, linked.parent_iff, holds_iff_of_untouched splices hc ha]

theorem flatten (linked : builder.Linked) (hid : builder.slot? id = some slot)
    (hclosed : slot.stage = .closed) (hself : ¬ builder.Holds id id)
    (h : builder.flatten id = .ok built) : built.Linked := by
  rcases splices_of_flatten hid h with rfl | splices
  · exact linked
  refine ⟨linked.parent_iff_splice splices, fun p => ?_, fun n held hn hstage => ?_⟩
  · have hslots : builder.children id = slot.children := by simp [children, hid]
    rw [splices.children]
    split
    next => exact hslots ▸ linked.distinct_spliced hself
    next =>
      split
      next => exact .nil
      next => exact linked.distinct p
  · rw [splices.slot?] at hn
    obtain ⟨old, hold, rfl⟩ := Option.map_eq_some_iff.1 hn
    dsimp only at hstage ⊢
    split
    next =>
      refine fun he => hstage ?_
      rw [← Option.some.inj he, hid] at hold
      exact Option.some.inj hold ▸ hclosed
    next =>
      split
      next => simp
      next => exact linked.unclosed n old hold hstage

theorem close (linked : builder.Linked) (h : builder.close id = .ok built) : built.Linked := by
  unfold Builder.close at h
  split at h
  next => cases h
  next slot hid =>
    split at h
    next => cases h
    next => cases h
    next hstage =>
      have hclosed : (builder.modify id fun slot => { slot with stage := .closed }).Linked :=
        linked.restage hid (by simp [hstage])
      have hself := linked.not_holds_self hid (by simp [hstage])
      split at h
      next =>
        have hslot : (builder.modify id fun slot => { slot with stage := .closed }).slot? id =
            some { slot with stage := .closed } := by simp [hid]
        refine hclosed.flatten hslot rfl (fun hloop => hself ?_) h
        rw [holds_iff_slot] at hloop ⊢
        simpa [hid] using hloop
      next => cases h; exact hclosed

end Splice

theorem leaf (linked : builder.Linked) {body : Body} {id : NodeId}
    (h : builder.leaf body = .ok (id, built)) : built.Linked := by
  obtain ⟨opened, hopen, h⟩ := bind_eq_ok_iff.1 h
  obtain ⟨closed, hclose, h⟩ := bind_eq_ok_iff.1 h
  cases h
  exact ((linked.node body).open hopen).close hclose

end Linked

/-! ### Histories -/

/-- A call on a builder, accepted or not. -/
inductive Step where
  | node (body : Body)
  | leaf (body : Body)
  | «open» (id : NodeId)
  | attach (parent child : NodeId) (index : Nat)
  | close (id : NodeId)

/-- The builder after a call. A call that is refused leaves it as it is. -/
def after (builder : Builder) : Step → Builder
  | .node body => (builder.node body).2
  | .leaf body => ((builder.leaf body).toOption.map Prod.snd).getD builder
  | .open id => (builder.open id).toOption.getD builder
  | .attach parent child index => (builder.attach parent child index).toOption.getD builder
  | .close id => (builder.close id).toOption.getD builder

def Refuses (builder : Builder) : Step → Prop
  | .node _ => False
  | .leaf body => ∃ error, builder.leaf body = .error error
  | .open id => ∃ error, builder.open id = .error error
  | .attach parent child index => ∃ error, builder.attach parent child index = .error error
  | .close id => ∃ error, builder.close id = .error error

/-- How a call on a builder comes out. -/
inductive Comes (builder : Builder) : Step → Builder → Prop where
  | node (body : Body) : Comes builder (.node body) (builder.node body).2
  | leaf {body : Body} {id : NodeId} {built : Builder} (h : builder.leaf body = .ok (id, built)) :
      Comes builder (.leaf body) built
  | «open» {id : NodeId} {built : Builder} (h : builder.open id = .ok built) :
      Comes builder (.open id) built
  | attach {parent child : NodeId} {index : Nat} {built : Builder}
      (h : builder.attach parent child index = .ok built) :
      Comes builder (.attach parent child index) built
  | close {id : NodeId} {built : Builder} (h : builder.close id = .ok built) :
      Comes builder (.close id) built
  | refused {step : Step} (h : builder.Refuses step) : Comes builder step builder

theorem comes_after (builder : Builder) (step : Step) :
    builder.Comes step (builder.after step) := by
  cases step with
  | node body => exact .node body
  | leaf body =>
    rw [after]
    cases h : builder.leaf body with
    | error error => exact .refused ⟨error, h⟩
    | ok made => exact .leaf h
  | «open» id =>
    rw [after]
    cases h : builder.open id with
    | error error => exact .refused ⟨error, h⟩
    | ok built => exact .open h
  | attach parent child index =>
    rw [after]
    cases h : builder.attach parent child index with
    | error error => exact .refused ⟨error, h⟩
    | ok built => exact .attach h
  | close id =>
    rw [after]
    cases h : builder.close id with
    | error error => exact .refused ⟨error, h⟩
    | ok built => exact .close h

theorem Linked.after {builder : Builder} (linked : builder.Linked) (step : Step) :
    (builder.after step).Linked := by
  have comes := builder.comes_after step
  generalize builder.after step = built at comes ⊢
  cases comes with
  | node body => exact linked.node body
  | leaf h => exact linked.leaf h
  | «open» h => exact linked.open h
  | attach h => exact linked.attach h
  | close h => exact linked.close h
  | refused => exact linked

theorem linked_foldl (steps : List Step) {builder : Builder} (linked : builder.Linked) :
    (steps.foldl Builder.after builder).Linked := by
  induction steps generalizing builder with
  | nil => exact linked
  | cons step rest ih => exact ih (linked.after step)

/-- Parents and child slots agree after any calls, and no node is in two slots. -/
theorem links_agree_after (steps : List Step) :
    (∀ p c, (steps.foldl Builder.after ∅).parent? c = some p ↔
      ∃ index, (steps.foldl Builder.after ∅).child? p index = some c) ∧
    ∀ p q i j c, (steps.foldl Builder.after ∅).child? p i = some c →
      (steps.foldl Builder.after ∅).child? q j = some c → p = q ∧ i = j := by
  have linked := linked_foldl steps Linked.empty
  refine ⟨fun p c => (linked.parent_iff p c).trans holds_iff_child, fun p q i j c hi hj => ?_⟩
  have hpq := linked.holder_unique (holds_iff_child.2 ⟨i, hi⟩) (holds_iff_child.2 ⟨j, hj⟩)
  subst hpq
  exact ⟨rfl, distinct_iff.1 (linked.distinct p) i j c
    (Option.join_eq_some_iff.1 hi) (Option.join_eq_some_iff.1 hj)⟩

/-- Two chains in each other's slots: the one that closes first absorbs the other, and with it
itself. -/
example : (([.node .chain, .node .chain, .open 0, .open 1, .attach 0 1 0, .attach 1 0 0, .close 0] :
    List Step).foldl Builder.after ∅).parent? 0 = some 0 := by rfl

end Builder
end ObjectNavigation
