import ObjectNavigation.Builder.Flatten
import ObjectNavigation.Proofs.Outcome

/-!
What the calls on a builder do to each single node: which slots and which parent it has afterwards,
in terms of those before. Attaching and splicing are each one change of all nodes at once, and the
count check of the splicing never fails.
-/

namespace ObjectNavigation

namespace Builder

/-! ### What a change does to one node -/

@[simp] theorem slot?_modify (builder : Builder) (id n : NodeId) (change : Slot → Slot) :
    (builder.modify id change).slot? n =
      if n = id then (builder.slot? n).map change else builder.slot? n := by
  simp only [slot?, modify, Array.getElem?_modify, eq_comm]

theorem slot?_modifyAll (builder : Builder) (ids : List NodeId) (n : NodeId)
    {change : Slot → Slot} (stable : ∀ slot, change (change slot) = change slot) :
    (builder.modifyAll ids change).slot? n =
      if n ∈ ids then (builder.slot? n).map change else builder.slot? n := by
  induction ids generalizing builder with
  | nil => rfl
  | cons id rest ih =>
    have hstep : (builder.modifyAll (id :: rest) change).slot? n =
        ((builder.modify id change).modifyAll rest change).slot? n := rfl
    rw [hstep, ih, slot?_modify]
    by_cases hid : n = id
    · subst hid
      by_cases hrest : n ∈ rest <;> simp [hrest, stable, Function.comp_def]
    · simp [hid]

theorem slot?_node (builder : Builder) (body : Body) (n : NodeId) :
    (builder.node body).2.slot? n =
      if n = builder.slots.size then some { body } else builder.slot? n := by
  simp only [slot?, node, Array.getElem?_push]

theorem slot?_size (builder : Builder) : builder.slot? builder.slots.size = none := by
  simp [slot?]

/-! ### Filled slots -/

/-- `child` is in one of the slots of `parent`. -/
def Holds (builder : Builder) (parent child : NodeId) : Prop :=
  some child ∈ builder.children parent

theorem holds_iff_slot {builder : Builder} {parent child : NodeId} :
    builder.Holds parent child ↔
      ∃ slot, builder.slot? parent = some slot ∧ some child ∈ slot.children := by
  unfold Holds children
  cases builder.slot? parent <;> simp

theorem holds_iff_child {builder : Builder} {parent child : NodeId} :
    builder.Holds parent child ↔ ∃ index, builder.child? parent index = some child := by
  simp only [Holds, child?, List.mem_iff_getElem?, Option.join_eq_some_iff]

theorem parent?_eq_some_iff {builder : Builder} {parent child : NodeId} :
    builder.parent? child = some parent ↔
      ∃ slot, builder.slot? child = some slot ∧ slot.parent = some parent := by
  simp [parent?, Option.bind_eq_some_iff]

def Distinct (slots : List (Option NodeId)) : Prop :=
  slots.Pairwise fun s t => s = none ∨ s ≠ t

theorem distinct_iff {slots : List (Option NodeId)} :
    Distinct slots ↔
      ∀ (i j : Nat) (c : NodeId), slots[i]? = some (some c) → slots[j]? = some (some c) →
        i = j := by
  unfold Distinct
  rw [List.pairwise_iff_getElem]
  constructor
  · intro h i j c hi hj
    obtain ⟨hil, hi⟩ := List.getElem?_eq_some_iff.1 hi
    obtain ⟨hjl, hj⟩ := List.getElem?_eq_some_iff.1 hj
    rcases Nat.lt_trichotomy i j with hlt | heq | hlt
    · rcases h i j hil hjl hlt with hn | hne
      · simp [hi] at hn
      · exact absurd (hi.trans hj.symm) hne
    · exact heq
    · rcases h j i hjl hil hlt with hn | hne
      · simp [hj] at hn
      · exact absurd (hj.trans hi.symm) hne
  · intro h i j hi hj hlt
    cases hs : slots[i] with
    | none => exact .inl rfl
    | some c =>
      refine .inr fun heq => ?_
      have := h i j c (List.getElem?_eq_some_iff.2 ⟨hi, hs⟩)
        (List.getElem?_eq_some_iff.2 ⟨hj, heq.symm⟩)
      omega

/-! ### What a call does to all nodes -/

theorem getElem?_place (child : NodeId) (index i : Nat) (slots : List (Option NodeId)) :
    (place child index slots)[i]? =
      if i = index then some (some child)
      else if i < slots.length then slots[i]?
      else if i < index then some none else none := by
  have hlen : (slots ++ List.replicate (index + 1 - slots.length) none).length =
      max slots.length (index + 1) := by simp; omega
  unfold place
  rw [List.getElem?_set]
  by_cases heq : i = index
  · subst heq
    rw [if_pos rfl, if_pos rfl, if_pos (by omega)]
  · rw [if_neg (Ne.symm heq), if_neg heq]
    by_cases hlt : i < slots.length
    · rw [if_pos hlt, List.getElem?_append_left hlt]
    · rw [if_neg hlt, List.getElem?_append_right (by omega), List.getElem?_replicate]
      by_cases hi : i < index
      · rw [if_pos hi, if_pos (by omega)]
      · rw [if_neg hi, if_neg (by omega)]

theorem getElem?_place_eq_some {child c : NodeId} {index i : Nat} {slots : List (Option NodeId)}
    (h : (place child index slots)[i]? = some (some c)) :
    (i = index ∧ c = child) ∨ (i ≠ index ∧ slots[i]? = some (some c)) := by
  rw [getElem?_place] at h
  split at h
  next heq => exact .inl ⟨heq, (Option.some.inj (Option.some.inj h)).symm⟩
  next hne =>
    split at h
    next => exact .inr ⟨hne, h⟩
    next => split at h <;> simp at h

theorem mem_place_iff {child c : NodeId} {index : Nat} {slots : List (Option NodeId)} :
    some c ∈ place child index slots ↔
      c = child ∨ ∃ i, i ≠ index ∧ slots[i]? = some (some c) := by
  rw [List.mem_iff_getElem?]
  constructor
  · rintro ⟨i, hi⟩
    rcases getElem?_place_eq_some hi with ⟨_, rfl⟩ | h
    · exact .inl rfl
    · exact .inr ⟨i, h⟩
  · rintro (rfl | ⟨i, hne, hi⟩)
    · exact ⟨index, by rw [getElem?_place, if_pos rfl]⟩
    · refine ⟨i, ?_⟩
      rw [getElem?_place, if_neg hne, if_pos (List.getElem?_eq_some_iff.1 hi).1, hi]

/-- What an accepted attachment finds and does: the child gets the name of its parent, and what was
in the slot loses it. -/
structure Attaches (builder built : Builder) (parent child : NodeId) (index : Nat)
    (holder : Slot) : Prop where
  ne : parent ≠ child
  found : builder.slot? parent = some holder
  opened : holder.stage = .opened
  free : ∃ held, builder.slot? child = some held ∧ held.parent = none
  slot? : ∀ n, built.slot? n = (builder.slot? n).map fun slot =>
    { slot with
      parent :=
        if n = child then some parent
        else if holder.children[index]? = some (some n) then none else slot.parent
      children := if n = parent then place child index slot.children else slot.children }

theorem slot?_attached {builder : Builder} {parent child : NodeId} (hne : parent ≠ child)
    (index : Nat) (holder : Slot) (n : NodeId) :
    (((builder.modify parent fun slot =>
        { slot with children := place child index slot.children }).modifyAll
        (holder.children[index]?).join.toList fun slot => { slot with parent := none }).modify
        child fun slot => { slot with parent := some parent }).slot? n =
      (builder.slot? n).map fun slot =>
        { slot with
          parent :=
            if n = child then some parent
            else if holder.children[index]? = some (some n) then none else slot.parent
          children := if n = parent then place child index slot.children else slot.children } := by
  have hmem : n ∈ (holder.children[index]?).join.toList ↔
      holder.children[index]? = some (some n) := by
    rw [Option.mem_toList, Option.join_eq_some_iff]
  have hclear : ∀ slot : Slot, { { slot with parent := none } with parent := none } =
      { slot with parent := none } := fun _ => rfl
  rw [slot?_modify, slot?_modifyAll _ _ _ hclear, slot?_modify]
  simp only [hmem]
  cases builder.slot? n with
  | none => simp
  | some slot =>
    by_cases hc : n = child
    · have hnp : n ≠ parent := fun hp => hne (hp.symm.trans hc)
      simp only [if_pos hc, if_neg hnp]
      split <;> rfl
    · by_cases hp : n = parent
      · simp only [if_neg hc, if_pos hp]
        split <;> rfl
      · simp only [if_neg hc, if_neg hp]
        split <;> rfl

theorem attaches_of_attach {builder built : Builder} {parent child : NodeId} {index : Nat}
    (h : builder.attach parent child index = .ok built) :
    ∃ holder, Attaches builder built parent child index holder := by
  unfold attach at h
  split at h
  next => cases h
  next hne =>
    cases hparent : builder.slot? parent with
    | none => rw [hparent] at h; cases h
    | some holder =>
      rw [hparent] at h
      dsimp only at h
      split at h
      next => cases h
      next hopen =>
        cases hchild : builder.slot? child with
        | none => rw [hchild] at h; cases h
        | some held =>
          rw [hchild] at h
          dsimp only at h
          split at h
          next => cases h
          next hfree =>
            cases h
            exact ⟨holder, hne, hparent, by simpa using hopen, ⟨held, hchild, hfree⟩,
              slot?_attached hne index holder⟩

namespace Attaches
variable {builder built : Builder} {parent child : NodeId} {index : Nat} {holder : Slot}

theorem children (attaches : Attaches builder built parent child index holder) (p : NodeId) :
    built.children p =
      if p = parent then place child index holder.children else builder.children p := by
  by_cases hp : p = parent
  · subst hp
    simp [Builder.children, attaches.slot?, attaches.found]
  · simp [Builder.children, attaches.slot?, hp, Function.comp_def]

theorem parent? (attaches : Attaches builder built parent child index holder) (c : NodeId) :
    built.parent? c =
      if c = child then some parent
      else if holder.children[index]? = some (some c) then none else builder.parent? c := by
  obtain ⟨held, hheld, _⟩ := attaches.free
  by_cases hc : c = child
  · subst hc
    simp [Builder.parent?, attaches.slot?, hheld]
  · rw [Builder.parent?, Builder.parent?, attaches.slot?]
    by_cases hd : holder.children[index]? = some (some c) <;>
      cases builder.slot? c <;> simp [hc, hd]

theorem holds_iff (attaches : Attaches builder built parent child index holder) {p c : NodeId} :
    built.Holds p c ↔
      if p = parent then c = child ∨ ∃ i, i ≠ index ∧ holder.children[i]? = some (some c)
      else builder.Holds p c := by
  rw [Holds, attaches.children]
  split
  next => exact mem_place_iff
  next => exact Iff.rfl

theorem holds_of_slot (attaches : Attaches builder built parent child index holder) {i : Nat}
    {c : NodeId} (h : holder.children[i]? = some (some c)) : builder.Holds parent c :=
  holds_iff_slot.2 ⟨holder, attaches.found, List.mem_of_getElem? h⟩

end Attaches

def absorbed (builder : Builder) (kind : Kind) (slots : List (Option NodeId)) : List NodeId :=
  slots.filterMap (builder.absorbed? kind)

def spliced (builder : Builder) (kind : Kind) (slots : List (Option NodeId)) :
    List (Option NodeId) :=
  slots.flatMap (builder.expansion kind)

theorem absorbed?_eq_some_iff {builder : Builder} {kind : Kind} {slot : Option NodeId}
    {c : NodeId} : builder.absorbed? kind slot = some c ↔
      slot = some c ∧ ∃ held, builder.slot? c = some held ∧ held.kind = kind := by
  unfold absorbed?
  rw [Option.filter_eq_some_iff]
  cases builder.slot? c <;> simp [Option.any]

theorem length_spliced (builder : Builder) (kind : Kind) (slots : List (Option NodeId)) :
    (builder.spliced kind slots).length = builder.expandedLength kind slots := by
  have hslot : ∀ slot, (builder.expansion kind slot).length = builder.expansionSize kind slot := by
    intro slot
    unfold expansion expansionSize
    split <;> simp [childCount]
  induction slots with
  | nil => rfl
  | cons slot rest ih =>
    rw [expandedLength, ← ih, ← hslot, spliced, List.flatMap_cons, List.length_append]
    rfl

theorem mem_absorbed_iff {builder : Builder} {kind : Kind} {slots : List (Option NodeId)}
    {c : NodeId} : c ∈ builder.absorbed kind slots ↔
      some c ∈ slots ∧ ∃ held, builder.slot? c = some held ∧ held.kind = kind := by
  simp only [absorbed, List.mem_filterMap, absorbed?_eq_some_iff]
  constructor
  · rintro ⟨_, hmem, rfl, hheld⟩
    exact ⟨hmem, hheld⟩
  · rintro ⟨hmem, hheld⟩
    exact ⟨some c, hmem, rfl, hheld⟩

/-- What comes in place of a slot: the children of an absorbed node, or what was in the slot. -/
theorem mem_expansion_iff {builder : Builder} {kind : Kind} {slot : Option NodeId} {c : NodeId} :
    some c ∈ builder.expansion kind slot ↔
      (∃ a, builder.absorbed? kind slot = some a ∧ builder.Holds a c) ∨
      (slot = some c ∧ builder.absorbed? kind slot = none) := by
  unfold expansion Holds
  cases builder.absorbed? kind slot <;> simp [eq_comm]

theorem mem_spliced_iff {builder : Builder} {kind : Kind} {slots : List (Option NodeId)}
    {c : NodeId} : some c ∈ builder.spliced kind slots ↔
      (∃ a ∈ builder.absorbed kind slots, builder.Holds a c) ∨
      (some c ∈ slots ∧ c ∉ builder.absorbed kind slots) := by
  simp only [spliced, List.mem_flatMap, mem_expansion_iff, absorbed, List.mem_filterMap]
  constructor
  · rintro ⟨s, hs, ⟨a, ha, hac⟩ | ⟨rfl, hnone⟩⟩
    · exact .inl ⟨a, ⟨s, hs, ha⟩, hac⟩
    · refine .inr ⟨hs, ?_⟩
      rintro ⟨s', _, hs'⟩
      rw [(absorbed?_eq_some_iff.1 hs').1] at hs'
      exact absurd (hnone.symm.trans hs') (by simp)
  · rintro (⟨a, ⟨s, hs, ha⟩, hac⟩ | ⟨hs, hnot⟩)
    · exact ⟨s, hs, .inl ⟨a, ha, hac⟩⟩
    · refine ⟨some c, hs, .inr ⟨rfl, ?_⟩⟩
      cases ha : builder.absorbed? kind (some c) with
      | none => rfl
      | some a =>
        have hca := Option.some.inj (absorbed?_eq_some_iff.1 ha).1
        exact absurd ⟨some c, hs, hca ▸ ha⟩ hnot

/-- The count check of the splicing never fails. -/
theorem flatten_eq {builder : Builder} {id : NodeId} {slot : Slot}
    (h : builder.slot? id = some slot) :
    builder.flatten id =
      if builder.absorbed slot.kind slot.children = [] then .ok builder
      else
        .ok <| ((builder.modifyAll (builder.absorbed slot.kind slot.children) fun slot =>
            { slot with children := [], parent := none }).modifyAll
              ((builder.spliced slot.kind slot.children).filterMap fun s => s)
            fun slot => { slot with parent := some id }).modify id
            fun held => { held with children := builder.spliced slot.kind slot.children } := by
  unfold flatten
  rw [h]
  dsimp only
  by_cases hnone : builder.absorbed slot.kind slot.children = []
  · rw [if_pos hnone, if_pos (by simpa [absorbed] using hnone)]
  · rw [if_neg hnone, if_neg (by simpa [absorbed] using hnone), if_neg]
    · rfl
    · exact not_not_intro (length_spliced builder slot.kind slot.children)

/-- What splicing does: the children of the absorbed nodes move, and the absorbed nodes are left
with nothing. -/
structure Splices (builder built : Builder) (id : NodeId) (slot : Slot) : Prop where
  found : builder.slot? id = some slot
  slot? : ∀ n, built.slot? n = (builder.slot? n).map fun held =>
    { held with
      parent :=
        if some n ∈ builder.spliced slot.kind slot.children then some id
        else if n ∈ builder.absorbed slot.kind slot.children then none else held.parent
      children :=
        if n = id then builder.spliced slot.kind slot.children
        else if n ∈ builder.absorbed slot.kind slot.children then [] else held.children }

theorem splices_flatten {builder : Builder} {id : NodeId} {slot : Slot}
    (hid : builder.slot? id = some slot)
    (hsome : builder.absorbed slot.kind slot.children ≠ []) :
    ∃ built, builder.flatten id = .ok built ∧ Splices builder built id slot := by
  rw [flatten_eq hid, if_neg hsome]
  refine ⟨_, rfl, hid, fun n => ?_⟩
  have hmem : n ∈ (builder.spliced slot.kind slot.children).filterMap (fun s => s) ↔
      some n ∈ builder.spliced slot.kind slot.children := by simp
  rw [slot?_modify, slot?_modifyAll, slot?_modifyAll]
  · simp only [hmem]
    cases builder.slot? n with
    | none => simp
    | some held =>
      by_cases hn : n = id
      · simp only [if_pos hn]
        split <;> split <;> rfl
      · simp only [if_neg hn]
        split <;> split <;> rfl
  · exact fun _ => rfl
  · exact fun _ => rfl

theorem splices_of_flatten {builder built : Builder} {id : NodeId} {slot : Slot}
    (hid : builder.slot? id = some slot) (h : builder.flatten id = .ok built) :
    built = builder ∨ Splices builder built id slot := by
  by_cases hnone : builder.absorbed slot.kind slot.children = []
  · rw [flatten_eq hid, if_pos hnone] at h
    exact .inl (Except.ok.inj h).symm
  · obtain ⟨built', hbuilt', splices⟩ := splices_flatten hid hnone
    rw [h] at hbuilt'
    cases hbuilt'
    exact .inr splices

namespace Splices
variable {builder built : Builder} {id : NodeId} {slot : Slot}

theorem children (splices : Splices builder built id slot) (p : NodeId) :
    built.children p =
      if p = id then builder.spliced slot.kind slot.children
      else if p ∈ builder.absorbed slot.kind slot.children then [] else builder.children p := by
  by_cases hp : p = id
  · subst hp
    simp [Builder.children, splices.slot?, splices.found]
  · by_cases ha : p ∈ builder.absorbed slot.kind slot.children
    · cases hs : builder.slot? p <;> simp [Builder.children, splices.slot?, hp, ha, hs]
    · simp [Builder.children, splices.slot?, hp, ha, Function.comp_def]

theorem parent? (splices : Splices builder built id slot) {c : NodeId} {held : Slot}
    (hc : builder.slot? c = some held) :
    built.parent? c =
      if some c ∈ builder.spliced slot.kind slot.children then some id
      else if c ∈ builder.absorbed slot.kind slot.children then none else builder.parent? c := by
  simp [Builder.parent?, splices.slot?, hc]

theorem holds_iff (splices : Splices builder built id slot) {p c : NodeId} :
    built.Holds p c ↔
      if p = id then some c ∈ builder.spliced slot.kind slot.children
      else p ∉ builder.absorbed slot.kind slot.children ∧ builder.Holds p c := by
  rw [Holds, splices.children]
  split
  next => exact Iff.rfl
  next =>
    split
    next ha => simp [ha]
    next ha => exact ⟨fun h => ⟨ha, h⟩, fun h => h.2⟩

end Splices
end Builder
end ObjectNavigation
