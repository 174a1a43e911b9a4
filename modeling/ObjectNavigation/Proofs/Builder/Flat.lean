import ObjectNavigation.Proofs.Builder.Finish
import ObjectNavigation.Proofs.Node.Standard

/-!
Flattened normal form. A tree is flat if no node that flattens has a child of its own kind. A
closing node takes over the children of its children of the same kind, but not those below them: it
ends up with a child of its kind exactly if such a child held one at that moment, and from then on a
closed node loses children only by being absorbed itself. So what a history leaves can be told from
the moments at which nodes were closed (`isFlat_finish_iff`). Nothing of the kind is left where
children close before their parent (`isFlat_of_children_first`), but nothing makes them do so.
-/

namespace ObjectNavigation

namespace Tree

mutual

/-- No node that flattens has a child of its kind. -/
def isFlat : Tree → Bool
  | node body slots =>
    (!body.flattens || slots.all fun slot => slot.all fun child => child.kind ≠ body.kind) &&
      slotsFlat slots

def slotsFlat : List (Option Tree) → Bool
  | [] => true
  | none :: rest => slotsFlat rest
  | some child :: rest => child.isFlat && slotsFlat rest

end

theorem all_filled_iff (slots : List (Option Tree)) (p : Tree → Bool) :
    (slots.all fun slot => slot.all p) = true ↔ ∀ child, some child ∈ slots → p child = true := by
  simp only [List.all_eq_true, Option.all_eq_true]
  constructor
  · intro h child hchild
    exact h _ hchild child rfl
  · rintro h _ hslot child rfl
    exact h child hslot

end Tree

namespace Builder
variable {builder built : Builder} {inOrder : NodeId → Prop}

def body? (builder : Builder) (n : NodeId) : Option Body :=
  (builder.slot? n).map Slot.body

def kind? (builder : Builder) (n : NodeId) : Option Kind :=
  (builder.body? n).map Body.kind

def Flattens (builder : Builder) (n : NodeId) : Prop :=
  (builder.body? n).any Body.flattens = true

def IsClosed (builder : Builder) (n : NodeId) : Prop :=
  (builder.slot? n).map Slot.stage = some .closed

structure Nests (builder : Builder) (p c : NodeId) : Prop where
  holds : builder.Holds p c
  kind : builder.kind? c = builder.kind? p

theorem body?_eq_some_iff {n : NodeId} {body : Body} :
    builder.body? n = some body ↔ ∃ slot, builder.slot? n = some slot ∧ slot.body = body :=
  Option.map_eq_some_iff

theorem isClosed_iff {n : NodeId} :
    builder.IsClosed n ↔ ∃ slot, builder.slot? n = some slot ∧ slot.stage = .closed :=
  Option.map_eq_some_iff

theorem Linked.body?_of_holds (linked : builder.Linked) {p c : NodeId} (h : builder.Holds p c) :
    (∃ body, builder.body? p = some body) ∧ ∃ body, builder.body? c = some body := by
  obtain ⟨holder, hholder, _⟩ := holds_iff_slot.1 h
  obtain ⟨held, hheld, _⟩ := linked.known h
  exact ⟨⟨_, body?_eq_some_iff.2 ⟨holder, hholder, rfl⟩⟩,
    ⟨_, body?_eq_some_iff.2 ⟨held, hheld, rfl⟩⟩⟩

/-! ### Finished trees -/

theorem DepictsSlots.kinds {slots : List (Option Tree)} {ids : List (Option NodeId)}
    {order : List NodeId} (h : builder.DepictsSlots slots ids order) :
    slots.map (Option.map Tree.kind) = ids.map (Option.bind · builder.kind?) := by
  induction slots generalizing ids order with
  | nil =>
    obtain ⟨rfl, rfl⟩ := h
    rfl
  | cons slot rest ih =>
    cases slot with
    | none =>
      obtain ⟨others, rfl, h⟩ := h
      rw [List.map_cons, List.map_cons, ih h]
      rfl
    | some child =>
      obtain ⟨id, others, first, last, rfl, hchild, hrest, rfl⟩ := h
      cases child with
      | node body below =>
        obtain ⟨held, _, hheld, _, rfl, _, _⟩ := hchild
        rw [List.map_cons, List.map_cons, ih hrest, Option.bind_some, kind?, body?, hheld]
        rfl

theorem DepictsSlots.exists_kind_iff {slots : List (Option Tree)} {ids : List (Option NodeId)}
    {order : List NodeId} (h : builder.DepictsSlots slots ids order) (kind : Kind) :
    (∃ child, some child ∈ slots ∧ child.kind = kind) ↔
      ∃ c, some c ∈ ids ∧ builder.kind? c = some kind := by
  have hmem : some kind ∈ slots.map (Option.map Tree.kind) ↔
      some kind ∈ ids.map (Option.bind · builder.kind?) := by
    rw [h.kinds]
  simpa [List.mem_map, Option.bind_eq_some_iff, and_comm, and_assoc] using hmem

mutual

theorem Depicts.isFlat_iff {tree : Tree} {id : NodeId} {order : List NodeId}
    (h : builder.Depicts tree id order) :
    tree.isFlat = true ↔ ∀ n ∈ order, builder.Flattens n → ∀ c, ¬ builder.Nests n c := by
  match tree with
  | .node body slots =>
    obtain ⟨held, below, hheld, _, rfl, hslots, rfl⟩ := h
    have hnests : ∀ c, builder.Nests id c ↔
        some c ∈ held.children ∧ builder.kind? c = some held.body.kind := by
      intro c
      have hkind : builder.kind? id = some held.body.kind := by simp [kind?, body?, hheld]
      constructor
      · rintro ⟨hholds, hsame⟩
        obtain ⟨slot, hslot, hmem⟩ := holds_iff_slot.1 hholds
        rw [hheld] at hslot
        cases hslot
        exact ⟨hmem, hsame.trans hkind⟩
      · rintro ⟨hmem, hsame⟩
        exact ⟨holds_iff_slot.2 ⟨held, hheld, hmem⟩, hsame.trans hkind.symm⟩
    have hflattens : builder.Flattens id ↔ held.body.flattens = true := by
      simp [Flattens, body?, hheld]
    have hroot : (∀ child, some child ∈ slots → child.kind ≠ held.body.kind) ↔
        ∀ c, ¬ builder.Nests id c := by
      have hexists := hslots.exists_kind_iff held.body.kind
      simp only [hnests]
      constructor
      · rintro hslots c hc
        obtain ⟨child, hchild, hkind⟩ := hexists.2 ⟨c, hc⟩
        exact hslots child hchild hkind
      · intro hnone child hchild hkind
        obtain ⟨c, hc⟩ := hexists.1 ⟨child, hchild, hkind⟩
        exact hnone c hc
    rw [Tree.isFlat, Bool.and_eq_true, hslots.isFlat_iff, List.forall_mem_cons, hflattens, ← hroot]
    refine and_congr_left fun _ => ?_
    cases held.body.flattens with
    | false => simp
    | true =>
      simpa using Tree.all_filled_iff slots fun child => decide (child.kind ≠ held.body.kind)

theorem DepictsSlots.isFlat_iff {slots : List (Option Tree)} {ids : List (Option NodeId)}
    {order : List NodeId} (h : builder.DepictsSlots slots ids order) :
    Tree.slotsFlat slots = true ↔
      ∀ n ∈ order, builder.Flattens n → ∀ c, ¬ builder.Nests n c := by
  match slots with
  | [] =>
    obtain ⟨rfl, rfl⟩ := h
    simp [Tree.slotsFlat]
  | none :: rest =>
    obtain ⟨others, rfl, h⟩ := h
    exact h.isFlat_iff
  | some child :: rest =>
    obtain ⟨id, others, first, last, rfl, hchild, hrest, rfl⟩ := h
    rw [Tree.slotsFlat, Bool.and_eq_true, hchild.isFlat_iff, hrest.isFlat_iff,
      List.forall_mem_append]

end

/-! ### Stages -/

def restage (builder : Builder) (id : NodeId) (stage : Stage) : Builder :=
  builder.modify id fun slot => { slot with stage }

section Restage
variable (builder) (id : NodeId) (stage : Stage)

theorem body?_restage (n : NodeId) : (builder.restage id stage).body? n = builder.body? n := by
  rw [body?, restage, slot?_modify]
  split <;> simp [body?, Function.comp_def]

theorem children_restage (n : NodeId) :
    (builder.restage id stage).children n = builder.children n := by
  rw [children, restage, slot?_modify]
  split <;> simp [children, Function.comp_def]

theorem isClosed_restage_iff {n : NodeId} (h : n ≠ id) :
    (builder.restage id stage).IsClosed n ↔ builder.IsClosed n := by
  rw [IsClosed, restage, slot?_modify, if_neg h, IsClosed]

end Restage

theorem body?_attach {parent child : NodeId} {index : Nat}
    (h : builder.attach parent child index = .ok built) (n : NodeId) :
    built.body? n = builder.body? n := by
  obtain ⟨holder, attaches⟩ := attaches_of_attach h
  rw [body?, body?, attaches.slot?, Option.map_map]
  rfl

theorem open_cases {id : NodeId} (h : builder.open id = .ok built) :
    ∃ slot, builder.slot? id = some slot ∧ slot.stage ≠ .closed ∧
      built = builder.restage id .opened := by
  unfold Builder.open at h
  split at h
  next => cases h
  next slot hid =>
    split at h
    next => cases h
    next hstage =>
      cases h
      exact ⟨slot, hid, hstage, rfl⟩

/-! ### What closing leaves behind -/

/-- None of the children that the node absorbs when it closes holds one of that kind. -/
def Orderly (builder : Builder) (n : NodeId) : Prop :=
  builder.Flattens n → ∀ a c, builder.Nests n a → ¬ builder.Nests a c

/-- What a closed node holds tells whether it was closed in order, unless it was absorbed since. -/
structure Reflects (builder : Builder) (inOrder : NodeId → Prop) : Prop where
  exempt : ∀ n, (builder.IsClosed n → ¬ builder.Flattens n) → inOrder n
  nests_iff : ∀ n, builder.IsClosed n → builder.Flattens n →
    ((∃ c, builder.Nests n c) ↔ builder.children n ≠ [] ∧ ¬ inOrder n)

def KeepsBodies (builder built : Builder) : Prop :=
  ∀ n body, builder.body? n = some body → built.body? n = some body

theorem KeepsBodies.nests_iff (bodies : builder.KeepsBodies built) (linked : builder.Linked)
    {n : NodeId} (hchildren : built.children n = builder.children n) (c : NodeId) :
    built.Nests n c ↔ builder.Nests n c := by
  have hkinds : builder.Holds n c →
      (built.kind? c = built.kind? n ↔ builder.kind? c = builder.kind? n) := by
    intro hholds
    obtain ⟨⟨holder, hholder⟩, held, hheld⟩ := linked.body?_of_holds hholds
    simp only [kind?, bodies _ _ hholder, bodies _ _ hheld, hholder, hheld]
  have hholds : built.Holds n c ↔ builder.Holds n c := by rw [Holds, Holds, hchildren]
  constructor
  · rintro ⟨h, hkind⟩
    exact ⟨hholds.1 h, (hkinds (hholds.1 h)).1 hkind⟩
  · rintro ⟨h, hkind⟩
    exact ⟨hholds.2 h, (hkinds h).2 hkind⟩

theorem KeepsBodies.flattens_iff (bodies : builder.KeepsBodies built) {n : NodeId}
    (h : builder.IsClosed n) : built.Flattens n ↔ builder.Flattens n := by
  obtain ⟨slot, hslot, _⟩ := isClosed_iff.1 h
  have hbody := body?_eq_some_iff.2 ⟨slot, hslot, rfl⟩
  rw [Flattens, Flattens, bodies _ _ hbody, hbody]

namespace Reflects

theorem empty : (∅ : Builder).Reflects fun _ => True where
  exempt _ _ := trivial
  nests_iff n hn := by simp [IsClosed, slot?, EmptyCollection.emptyCollection] at hn

theorem congr (reflects : builder.Reflects inOrder) {inOrder' : NodeId → Prop}
    (h : ∀ n, inOrder' n ↔ inOrder n) : builder.Reflects inOrder' := by
  have heq : inOrder' = inOrder := funext fun n => propext (h n)
  rwa [heq]

/-- A call that closes no node and leaves the children of closed nodes alone. -/
theorem of_kept (reflects : builder.Reflects inOrder) (linked : builder.Linked)
    (bodies : builder.KeepsBodies built) (hclosed : ∀ n, built.IsClosed n ↔ builder.IsClosed n)
    (hchildren : ∀ n, builder.IsClosed n → built.children n = builder.children n) :
    built.Reflects inOrder := by
  constructor
  · intro n hn
    refine reflects.exempt n fun h => ?_
    rw [← bodies.flattens_iff h]
    exact hn ((hclosed n).2 h)
  · intro n hn hflattens
    have hn := (hclosed n).1 hn
    have hkept := hchildren n hn
    simp only [bodies.nests_iff linked hkept, hkept]
    exact reflects.nests_iff n hn ((bodies.flattens_iff hn).1 hflattens)

theorem node (reflects : builder.Reflects inOrder) (linked : builder.Linked) (body : Body) :
    (builder.node body).2.Reflects inOrder := by
  have hold : ∀ {n : NodeId} {slot : Slot}, builder.slot? n = some slot →
      (builder.node body).2.slot? n = some slot := by
    intro n slot hslot
    rw [slot?_node, if_neg, hslot]
    rintro rfl
    rw [slot?_size] at hslot
    cases hslot
  apply reflects.of_kept linked
  · intro n held hbody
    obtain ⟨slot, hslot, rfl⟩ := body?_eq_some_iff.1 hbody
    exact body?_eq_some_iff.2 ⟨slot, hold hslot, rfl⟩
  · intro n
    rw [isClosed_iff, isClosed_iff]
    constructor
    · rintro ⟨slot, hslot, hstage⟩
      rw [slot?_node] at hslot
      split at hslot
      next => cases hslot; cases hstage
      next => exact ⟨slot, hslot, hstage⟩
    · rintro ⟨slot, hslot, hstage⟩
      exact ⟨slot, hold hslot, hstage⟩
  · intro n hn
    obtain ⟨slot, hslot, _⟩ := isClosed_iff.1 hn
    rw [children, children, hold hslot, hslot]

theorem «open» (reflects : builder.Reflects inOrder) (linked : builder.Linked) {id : NodeId}
    (h : builder.open id = .ok built) : built.Reflects inOrder := by
  obtain ⟨slot, hid, hstage, rfl⟩ := open_cases h
  apply reflects.of_kept linked
  · intro n body hbody
    exact (builder.body?_restage id .opened n).trans hbody
  · intro n
    by_cases hn : n = id
    · subst hn
      simp [IsClosed, restage, hid, hstage]
    · exact builder.isClosed_restage_iff id .opened hn
  · intro n _
    exact builder.children_restage id .opened n

theorem attach (reflects : builder.Reflects inOrder) (linked : builder.Linked)
    {parent child : NodeId} {index : Nat} (h : builder.attach parent child index = .ok built) :
    built.Reflects inOrder := by
  obtain ⟨holder, attaches⟩ := attaches_of_attach h
  apply reflects.of_kept linked
  · intro n body hbody
    exact (body?_attach h n).trans hbody
  · intro n
    rw [IsClosed, IsClosed, attaches.slot?, Option.map_map]
    exact Iff.rfl
  · intro n hn
    rw [attaches.children, if_neg]
    rintro rfl
    obtain ⟨slot, hslot, hclosed⟩ := isClosed_iff.1 hn
    rw [attaches.found] at hslot
    cases hslot
    rw [attaches.opened] at hclosed
    cases hclosed

end Reflects

theorem mem_absorbed_iff_nests {id : NodeId} {slot : Slot} (hid : builder.slot? id = some slot)
    {a : NodeId} : a ∈ builder.absorbed slot.kind slot.children ↔ builder.Nests id a := by
  have hkind : builder.kind? id = some slot.kind := by
    simp [kind?, body?, hid, Slot.kind]
  rw [mem_absorbed_iff]
  constructor
  · rintro ⟨hmem, held, hheld, hsame⟩
    refine ⟨holds_iff_slot.2 ⟨slot, hid, hmem⟩, ?_⟩
    rw [hkind, ← hsame, kind?, body?, hheld]
    rfl
  · rintro ⟨hholds, hsame⟩
    obtain ⟨found, hfound, hmem⟩ := holds_iff_slot.1 hholds
    rw [hid] at hfound
    cases hfound
    obtain ⟨body, hbody, hbodyKind⟩ := Option.map_eq_some_iff.1 (hsame.trans hkind)
    obtain ⟨held, hheld, rfl⟩ := body?_eq_some_iff.1 hbody
    exact ⟨hmem, held, hheld, hbodyKind⟩

/-- What flattening does, without regard to parents. -/
structure FlattensTo (builder built : Builder) (id : NodeId) : Prop where
  body? : ∀ n, built.body? n = builder.body? n
  isClosed_iff : ∀ n, built.IsClosed n ↔ builder.IsClosed n
  children : ∀ n, n ≠ id → built.children n = [] ∨ built.children n = builder.children n
  nests_iff : ∀ c, built.Nests id c ↔ ∃ a, builder.Nests id a ∧ builder.Nests a c

theorem flattensTo_of_flatten {id : NodeId} {slot : Slot} (hid : builder.slot? id = some slot)
    (h : builder.flatten id = .ok built) : builder.FlattensTo built id := by
  by_cases hnone : builder.absorbed slot.kind slot.children = []
  · rw [flatten_eq hid, if_pos hnone] at h
    cases h
    have hnot : ∀ a, ¬ builder.Nests id a := by
      intro a ha
      rw [← mem_absorbed_iff_nests hid, hnone] at ha
      cases ha
    refine ⟨fun _ => rfl, fun _ => Iff.rfl, fun _ _ => .inr rfl, fun c => ?_⟩
    exact iff_of_false (hnot c) fun ⟨a, ha, _⟩ => hnot a ha
  · obtain ⟨built', hbuilt', splices⟩ := splices_flatten hid hnone
    rw [h] at hbuilt'
    cases hbuilt'
    have hbody : ∀ n, built.body? n = builder.body? n := by
      intro n
      rw [Builder.body?, Builder.body?, splices.slot?, Option.map_map]
      rfl
    refine ⟨hbody, fun n => ?_, fun n hn => ?_, fun c => ?_⟩
    · rw [IsClosed, IsClosed, splices.slot?, Option.map_map]
      exact Iff.rfl
    · rw [splices.children, if_neg hn]
      split
      next => exact .inl rfl
      next => exact .inr rfl
    · have hnests : built.Nests id c ↔ some c ∈ builder.spliced slot.kind slot.children ∧
          builder.kind? c = builder.kind? id := by
        have hholds := splices.holds_iff (p := id) (c := c)
        rw [if_pos rfl] at hholds
        rw [← hholds, kind?, kind?, ← hbody, ← hbody]
        exact ⟨fun h => ⟨h.holds, h.kind⟩, fun h => ⟨h.1, h.2⟩⟩
      -- A child of this kind that is left comes from an absorbed one, as the others were taken out.
      rw [hnests, mem_spliced_iff]
      constructor
      · rintro ⟨⟨a, ha, hac⟩ | ⟨hc, hnot⟩, hkind⟩
        · have hida := (mem_absorbed_iff_nests hid).1 ha
          exact ⟨a, hida, hac, hkind.trans hida.kind.symm⟩
        · refine absurd ((mem_absorbed_iff_nests hid).2 ⟨?_, hkind⟩) hnot
          exact holds_iff_slot.2 ⟨slot, hid, hc⟩
      · rintro ⟨a, hida, hac⟩
        refine ⟨.inl ⟨a, (mem_absorbed_iff_nests hid).2 hida, hac.holds⟩, ?_⟩
        exact hac.kind.trans hida.kind

theorem close_cases {id : NodeId} (h : builder.close id = .ok built) :
    ∃ slot, builder.slot? id = some slot ∧ slot.stage = .opened ∧
      (slot.body.flattens = false ∧ built = builder.restage id .closed ∨
        (builder.restage id .closed).FlattensTo built id) := by
  unfold close at h
  split at h
  next => cases h
  next slot hid =>
    split at h
    next => cases h
    next => cases h
    next hstage =>
      refine ⟨slot, hid, hstage, ?_⟩
      split at h
      next =>
        have hmarked : (builder.restage id .closed).slot? id =
            some { slot with stage := .closed } := by simp [restage, hid]
        exact .inr (flattensTo_of_flatten hmarked h)
      next hnot =>
        cases h
        exact .inl ⟨by simpa using hnot, rfl⟩

section Close
variable {id : NodeId} (h : builder.close id = .ok built)
include h

theorem body?_close (n : NodeId) : built.body? n = builder.body? n := by
  obtain ⟨_, _, _, hcases⟩ := close_cases h
  rw [← builder.body?_restage id .closed n]
  rcases hcases with ⟨_, rfl⟩ | flattens
  · rfl
  · exact flattens.body? n

theorem not_isClosed_of_close : ¬ builder.IsClosed id := by
  obtain ⟨slot, hid, hopened, _⟩ := close_cases h
  simp [IsClosed, hid, hopened]

theorem isClosed_close : built.IsClosed id := by
  obtain ⟨slot, hid, _, hcases⟩ := close_cases h
  rcases hcases with ⟨_, rfl⟩ | flattens
  · simp [IsClosed, restage, hid]
  · rw [flattens.isClosed_iff]
    simp [IsClosed, restage, hid]

theorem isClosed_close_iff {n : NodeId} (hn : n ≠ id) : built.IsClosed n ↔ builder.IsClosed n := by
  obtain ⟨_, _, _, hcases⟩ := close_cases h
  rw [← builder.isClosed_restage_iff id .closed hn]
  rcases hcases with ⟨_, rfl⟩ | flattens
  · exact Iff.rfl
  · exact flattens.isClosed_iff n

theorem children_close {n : NodeId} (hn : n ≠ id) :
    built.children n = [] ∨ built.children n = builder.children n := by
  obtain ⟨_, _, _, hcases⟩ := close_cases h
  rw [← builder.children_restage id .closed n]
  rcases hcases with ⟨_, rfl⟩ | flattens
  · exact .inr rfl
  · exact flattens.children n hn

theorem nests_close_iff (linked : builder.Linked) (hflattens : builder.Flattens id) (c : NodeId) :
    built.Nests id c ↔ ∃ a, builder.Nests id a ∧ builder.Nests a c := by
  obtain ⟨slot, hid, _, ⟨hnot, _⟩ | flattens⟩ := close_cases h
  · simp [Flattens, body?, hid, hnot] at hflattens
  · have bodies : builder.KeepsBodies (builder.restage id .closed) :=
      fun m body hbody => (builder.body?_restage id .closed m).trans hbody
    have hmarked : ∀ n c, (builder.restage id .closed).Nests n c ↔ builder.Nests n c :=
      fun n c => bodies.nests_iff linked (builder.children_restage id .closed n) c
    simp only [flattens.nests_iff, hmarked]

end Close

theorem Reflects.close (reflects : builder.Reflects inOrder) (linked : builder.Linked)
    {id : NodeId} (h : builder.close id = .ok built) :
    built.Reflects fun n => inOrder n ∧ (n = id → builder.Orderly n) := by
  have hopen := not_isClosed_of_close h
  have bodies := body?_close h
  constructor
  · intro n hn
    simp only [Flattens, bodies n] at hn
    by_cases heq : n = id
    · subst heq
      refine ⟨reflects.exempt n fun h => absurd h hopen, ?_⟩
      intro _ hflattens
      exact absurd hflattens (hn (isClosed_close h))
    · refine ⟨reflects.exempt n fun hclosed => hn ((isClosed_close_iff h heq).2 hclosed), ?_⟩
      intro hid
      exact absurd hid heq
  · intro n hn hflattens
    rw [Flattens, bodies n] at hflattens
    by_cases heq : n = id
    · subst heq
      have hnests := nests_close_iff h linked hflattens
      constructor
      · rintro ⟨c, hc⟩
        obtain ⟨a, hna, hac⟩ := (hnests c).1 hc
        refine ⟨List.ne_nil_of_mem hc.holds, ?_⟩
        rintro ⟨_, orderly⟩
        exact orderly rfl hflattens a c hna hac
      · rintro ⟨_, hnot⟩
        by_contra hnone
        refine hnot ⟨reflects.exempt n fun h => absurd h hopen, ?_⟩
        rintro _ _ a c hna hac
        exact hnone ⟨c, (hnests c).2 ⟨a, hna, hac⟩⟩
    · have hsame : inOrder n ∧ (n = id → builder.Orderly n) ↔ inOrder n :=
        and_iff_left fun hid => absurd hid heq
      rw [hsame]
      rcases children_close h heq with hnil | hkept
      · rw [hnil]
        refine iff_of_false ?_ (by simp)
        rintro ⟨c, hc⟩
        exact absurd hnil (List.ne_nil_of_mem hc.holds)
      · have keeps : builder.KeepsBodies built := fun m body hbody => (bodies m).trans hbody
        simp only [keeps.nests_iff linked hkept, hkept]
        exact reflects.nests_iff n ((isClosed_close_iff h heq).1 hn) hflattens

/-! ### Histories -/

def Step.body? : Step → Option Body
  | .node body | .leaf body => some body
  | _ => none

def Closes (builder : Builder) : Step → NodeId → Prop
  | .close id, n => n = id ∧ (builder.slot? id).map Slot.stage = some .opened
  | _, _ => False

/-- If it is closed at all, the node is closed in order. -/
def ClosesInOrder (builder : Builder) : List Step → NodeId → Prop
  | [], _ => True
  | step :: rest, n =>
    (builder.Closes step n → builder.Orderly n) ∧ (builder.after step).ClosesInOrder rest n

theorem exists_close {id : NodeId} {slot : Slot} (hid : builder.slot? id = some slot)
    (hopened : slot.stage = .opened) : ∃ built, builder.close id = .ok built := by
  unfold close
  simp only [hid, hopened]
  split
  next =>
    have hmarked : (builder.restage id .closed).slot? id = some { slot with stage := .closed } := by
      simp [restage, hid]
    have hflatten := flatten_eq hmarked
    rw [restage] at hflatten
    rw [hflatten]
    split
    next => exact ⟨_, rfl⟩
    next => exact ⟨_, rfl⟩
  next => exact ⟨_, rfl⟩

theorem not_closes {step : Step} (h : builder.Refuses step) (n : NodeId) :
    ¬ builder.Closes step n := by
  cases step with
  | close id =>
    rintro ⟨_, hstage⟩
    obtain ⟨slot, hid, hopened⟩ := Option.map_eq_some_iff.1 hstage
    obtain ⟨built, hbuilt⟩ := exists_close hid hopened
    obtain ⟨error, herror⟩ := h
    rw [herror] at hbuilt
    cases hbuilt
  | _ => exact id

namespace Reflects

theorem leaf (reflects : builder.Reflects inOrder) (linked : builder.Linked) {body : Body}
    {id : NodeId} (h : builder.leaf body = .ok (id, built)) : built.Reflects inOrder := by
  obtain ⟨opened, hopen, h⟩ := bind_eq_ok_iff.1 h
  obtain ⟨closed, hclose, h⟩ := bind_eq_ok_iff.1 h
  cases h
  have hlinked := linked.node body
  have hopened := (reflects.node linked body).open hlinked hopen
  have hreflects := hopened.close (hlinked.open hopen) hclose
  refine hreflects.congr fun n => (and_iff_left ?_).symm
  rintro rfl _ a c ha
  obtain ⟨slot, hslot, hstage, rfl⟩ := open_cases hopen
  have hnone : ((builder.node body).2.restage builder.slots.size .opened).children
      builder.slots.size = [] := by
    rw [children_restage]
    simp [children, slot?_node]
  exact absurd hnone (List.ne_nil_of_mem ha.holds)

theorem after (reflects : builder.Reflects inOrder) (linked : builder.Linked) (step : Step) :
    (builder.after step).Reflects fun n =>
      inOrder n ∧ (builder.Closes step n → builder.Orderly n) := by
  have comes := builder.comes_after step
  generalize builder.after step = built at comes ⊢
  cases comes with
  | node body => exact (reflects.node linked body).congr fun n => and_iff_left False.elim
  | leaf h => exact (reflects.leaf linked h).congr fun n => and_iff_left False.elim
  | «open» h => exact (reflects.open linked h).congr fun n => and_iff_left False.elim
  | attach h => exact (reflects.attach linked h).congr fun n => and_iff_left False.elim
  | close h =>
    obtain ⟨slot, hid, hopened, _⟩ := close_cases h
    refine (reflects.close linked h).congr fun n => ?_
    simp [Closes, hid, hopened]
  | refused h => exact reflects.congr fun n => and_iff_left fun hn => absurd hn (not_closes h n)

theorem foldl (steps : List Step) (reflects : builder.Reflects inOrder) (linked : builder.Linked) :
    (steps.foldl Builder.after builder).Reflects fun n =>
      inOrder n ∧ builder.ClosesInOrder steps n := by
  induction steps generalizing builder inOrder with
  | nil => exact reflects.congr fun n => and_iff_left trivial
  | cons step rest ih =>
    have hrest := ih (reflects.after linked step) (linked.after step)
    exact hrest.congr fun n => and_assoc.symm

end Reflects

theorem isFlat_finish (linked : builder.Linked) {root : NodeId} {tree : Tree}
    (h : builder.finish root = .ok tree) :
    (∀ n, Relation.ReflTransGen builder.Holds root n → builder.IsClosed n) ∧
      (tree.isFlat = true ↔ ∀ n, Relation.ReflTransGen builder.Holds root n →
        builder.Flattens n → ∀ c, ¬ builder.Nests n c) := by
  obtain ⟨⟨held, hknown, hparent⟩, hclosed⟩ := (finish_eq_ok_iff linked).1 ⟨tree, h⟩
  have hcollects := collects_finish linked (by simp [parent?, hknown, hparent]) hknown
  rw [h] at hcollects
  obtain ⟨order, horder⟩ := hcollects
  refine ⟨hclosed, ?_⟩
  simp only [horder.isFlat_iff, horder.mem_iff]

/-- A finished tree is flat exactly if each of its nodes that still has children was closed in
order: none of the children of its kind held one of that kind at that moment. -/
theorem isFlat_finish_iff {steps : List Step} {root : NodeId} {tree : Tree}
    (h : (steps.foldl Builder.after ∅).finish root = .ok tree) :
    tree.isFlat = true ↔
      ∀ n, Relation.ReflTransGen (steps.foldl Builder.after ∅).Holds root n →
        (steps.foldl Builder.after ∅).children n ≠ [] →
          (∅ : Builder).ClosesInOrder steps n := by
  have reflects := Reflects.empty.foldl steps Linked.empty
  obtain ⟨hclosed, hflat⟩ := isFlat_finish (linked_foldl steps Linked.empty) h
  rw [hflat]
  constructor
  · intro hnests n hn hne
    by_cases hflattens : (steps.foldl Builder.after ∅).Flattens n
    · by_contra hnot
      obtain ⟨c, hc⟩ := (reflects.nests_iff n (hclosed n hn) hflattens).2 ⟨hne, fun h => hnot h.2⟩
      exact hnests n hn hflattens c hc
    · exact (reflects.exempt n fun _ => hflattens).2
  · intro hinOrder n hn hflattens c hc
    obtain ⟨hne, hnot⟩ := (reflects.nests_iff n (hclosed n hn) hflattens).1 ⟨c, hc⟩
    exact hnot ⟨trivial, hinOrder n hn hne⟩

def parentsFirst : List Step :=
  [.node (.arithmetic .add), .node (.arithmetic .add), .node (.arithmetic .add),
    .leaf (.const (.int 1)), .open 0, .open 1, .open 2, .attach 2 3 0, .attach 1 2 0, .attach 0 1 0,
    .close 0, .close 1, .close 2]

theorem exists_not_closesInOrder : ∃ tree,
    (parentsFirst.foldl Builder.after ∅).finish 0 = .ok tree ∧
      ∃ n, Relation.ReflTransGen (parentsFirst.foldl Builder.after ∅).Holds 0 n ∧
        ¬ (∅ : Builder).ClosesInOrder parentsFirst n := by
  refine ⟨_, rfl, ?_⟩
  have hiff := @isFlat_finish_iff parentsFirst 0 _ rfl
  by_contra hnone
  refine absurd (hiff.2 fun n hn _ => ?_) (by decide)
  by_contra hnot
  exact hnone ⟨n, hn, hnot⟩

/-- Of the three sums the outermost takes the place of the one below it, and keeps the innermost. -/
theorem finish_parentsFirst_not_isFlat :
    (∀ step ∈ parentsFirst, ∀ body ∈ step.body?, body.isStandard = true) ∧
      ∃ tree, (parentsFirst.foldl Builder.after ∅).finish 0 = .ok tree ∧ tree.isFlat = false := by
  refine ⟨?_, _, rfl, rfl⟩
  simp [parentsFirst, Step.body?, Body.isStandard]

/-! ### Children first -/

/-- Whenever a node that flattens is closed, its children of its kind are closed already. -/
def ChildrenFirst (builder : Builder) : List Step → Prop
  | [] => True
  | step :: rest =>
    (∀ n, builder.Closes step n → builder.Flattens n → ∀ c, builder.Nests n c →
      builder.IsClosed c) ∧ (builder.after step).ChildrenFirst rest

def Standard (builder : Builder) : Prop :=
  ∀ n, ∀ body ∈ builder.body? n, body.isStandard = true

namespace Standard

theorem of_body?_eq (standard : builder.Standard) (h : ∀ n, built.body? n = builder.body? n) :
    built.Standard := by
  intro n body hbody
  rw [h] at hbody
  exact standard n body hbody

theorem node (standard : builder.Standard) {body : Body} (hbody : body.isStandard = true) :
    (builder.node body).2.Standard := by
  intro n held hheld
  rw [Builder.body?, slot?_node] at hheld
  split at hheld
  next =>
    cases hheld
    exact hbody
  next => exact standard n held hheld

theorem leaf (standard : builder.Standard) {body : Body} (hbody : body.isStandard = true)
    {id : NodeId} (h : builder.leaf body = .ok (id, built)) : built.Standard := by
  obtain ⟨opened, hopen, h⟩ := bind_eq_ok_iff.1 h
  obtain ⟨closed, hclose, h⟩ := bind_eq_ok_iff.1 h
  cases h
  obtain ⟨_, _, _, rfl⟩ := open_cases hopen
  apply (standard.node hbody).of_body?_eq
  intro n
  exact (body?_close hclose n).trans (body?_restage _ _ _ n)

theorem after (standard : builder.Standard) {step : Step}
    (hstep : ∀ body ∈ step.body?, body.isStandard = true) : (builder.after step).Standard := by
  have comes := builder.comes_after step
  generalize builder.after step = built at comes ⊢
  cases comes with
  | node body => exact standard.node (hstep body rfl)
  | leaf h => exact standard.leaf (hstep _ rfl) h
  | @«open» id _ h =>
    obtain ⟨_, _, _, rfl⟩ := open_cases h
    exact standard.of_body?_eq (builder.body?_restage id .opened)
  | attach h => exact standard.of_body?_eq (body?_attach h)
  | close h => exact standard.of_body?_eq (body?_close h)
  | refused => exact standard

end Standard

/-- Where all that was closed was closed in order, what is closed next after its children is, too.
-/
theorem Reflects.orderly (reflects : builder.Reflects fun _ => True) (linked : builder.Linked)
    (standard : builder.Standard) {n : NodeId}
    (hclosed : builder.Flattens n → ∀ c, builder.Nests n c → builder.IsClosed c) :
    builder.Orderly n := by
  intro hflattens a c hna hac
  obtain ⟨⟨holder, hholder⟩, held, hheld⟩ := linked.body?_of_holds hna.holds
  have hkind : held.kind = holder.kind := by
    have hkind := hna.kind
    rw [kind?, kind?, hholder, hheld] at hkind
    exact Option.some.inj hkind
  have hfalls : builder.Flattens a := by
    rw [Flattens, hheld, Option.any_some, Body.flattens_eq_of_kind_eq (standard a held hheld)
      (standard n holder hholder) hkind]
    simpa [Flattens, hholder] using hflattens
  have hnests := (reflects.nests_iff a (hclosed hflattens a hna) hfalls).1 ⟨c, hac⟩
  exact hnests.2 trivial

theorem ChildrenFirst.closesInOrder {steps : List Step} (first : builder.ChildrenFirst steps)
    (hsteps : ∀ step ∈ steps, ∀ body ∈ step.body?, body.isStandard = true)
    (linked : builder.Linked) (standard : builder.Standard)
    (reflects : builder.Reflects fun _ => True) (n : NodeId) : builder.ClosesInOrder steps n := by
  induction steps generalizing builder with
  | nil => trivial
  | cons step rest ih =>
    obtain ⟨hstep, hrest⟩ := List.forall_mem_cons.1 hsteps
    have horderly : ∀ m, builder.Closes step m → builder.Orderly m := by
      intro m hm
      exact reflects.orderly linked standard (first.1 m hm)
    have hafter := (reflects.after linked step).congr fun m =>
      (iff_of_true trivial ⟨trivial, horderly m⟩ : True ↔ _)
    exact ⟨horderly n, ih first.2 hrest (linked.after step) (standard.after hstep) hafter⟩

/-- Where children close before their parent, one level of splicing exposes every nesting. -/
theorem isFlat_of_children_first {steps : List Step} {root : NodeId} {tree : Tree}
    (hsteps : ∀ step ∈ steps, ∀ body ∈ step.body?, body.isStandard = true)
    (first : (∅ : Builder).ChildrenFirst steps)
    (h : (steps.foldl Builder.after ∅).finish root = .ok tree) : tree.isFlat = true := by
  have standard : (∅ : Builder).Standard := by
    intro n body hbody
    simp [body?, slot?, EmptyCollection.emptyCollection] at hbody
  have reflects := Reflects.empty.foldl steps Linked.empty
  obtain ⟨hclosed, hflat⟩ := isFlat_finish (linked_foldl steps Linked.empty) h
  rw [hflat]
  intro n hn hflattens c hc
  have hnot := ((reflects.nests_iff n (hclosed n hn) hflattens).1 ⟨c, hc⟩).2
  exact hnot ⟨trivial, first.closesInOrder hsteps Linked.empty standard Reflects.empty n⟩

end Builder
end ObjectNavigation
