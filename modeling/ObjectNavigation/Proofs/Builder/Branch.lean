import ObjectNavigation.Proofs.Builder.Depiction

/-!
Making a node over nodes that are there. If these depict trees, without a node in common, then the
new node depicts the tree that has them as children, or, where its body flattens, has the children
of those of its own kind in their place. No other node of the builder changes, and none of the calls
is refused.
-/

namespace ObjectNavigation

namespace Tree

/-- What a node of kind `kind` that flattens has in place of a child. -/
def spread (kind : Kind) (tree : Tree) : List (Option Tree) :=
  if tree.kind = kind then tree.slots else [some tree]

/-- The tree that closing a node over these children leaves. -/
def joined (body : Body) (children : List Tree) : Tree :=
  .node body
    (if body.flattens then children.flatMap (spread body.kind) else children.map some)

end Tree

namespace Builder
variable {builder built : Builder}

/-! ### What a depiction depends on -/

def content? (builder : Builder) (n : NodeId) : Option (Body × Stage × List (Option NodeId)) :=
  (builder.slot? n).map fun slot => (slot.body, slot.stage, slot.children)

theorem content?_eq_some_iff {n : NodeId} {body : Body} {stage : Stage}
    {children : List (Option NodeId)} :
    builder.content? n = some (body, stage, children) ↔
      ∃ held, builder.slot? n = some held ∧ held.body = body ∧ held.stage = stage ∧
        held.children = children := by
  simp [content?, Option.map_eq_some_iff]

mutual

theorem Depicts.congr {tree : Tree} {id : NodeId} {order : List NodeId}
    (h : builder.Depicts tree id order)
    (hsame : ∀ n ∈ order, built.content? n = builder.content? n) :
    built.Depicts tree id order := by
  match tree with
  | .node body slots =>
    obtain ⟨held, below, hheld, hclosed, hbody, hslots, rfl⟩ := h
    have hcontent := hsame id List.mem_cons_self
    rw [content?_eq_some_iff.2 ⟨held, hheld, rfl, rfl, rfl⟩] at hcontent
    obtain ⟨held', hheld', hbody', hstage', hchildren'⟩ := content?_eq_some_iff.1 hcontent
    refine ⟨held', below, hheld', hstage'.trans hclosed, hbody'.trans hbody, ?_, rfl⟩
    rw [hchildren']
    exact hslots.congr fun n hn => hsame n (List.mem_cons_of_mem _ hn)

theorem DepictsSlots.congr {slots : List (Option Tree)} {ids : List (Option NodeId)}
    {order : List NodeId} (h : builder.DepictsSlots slots ids order)
    (hsame : ∀ n ∈ order, built.content? n = builder.content? n) :
    built.DepictsSlots slots ids order := by
  match slots with
  | [] => exact h
  | none :: rest =>
    obtain ⟨others, rfl, h⟩ := h
    exact ⟨others, rfl, h.congr hsame⟩
  | some child :: rest =>
    obtain ⟨id, others, first, last, rfl, hchild, hrest, rfl⟩ := h
    refine ⟨id, others, first, last, rfl, hchild.congr fun n hn => ?_,
      hrest.congr fun n hn => ?_, rfl⟩
    · exact hsame n (List.mem_append_left _ hn)
    · exact hsame n (List.mem_append_right _ hn)

end

theorem DepictsSlots.append {slots others : List (Option Tree)} {ids more : List (Option NodeId)}
    {order last : List NodeId} (h : builder.DepictsSlots slots ids order)
    (hothers : builder.DepictsSlots others more last) :
    builder.DepictsSlots (slots ++ others) (ids ++ more) (order ++ last) := by
  induction slots generalizing ids order with
  | nil =>
    obtain ⟨rfl, rfl⟩ := h
    exact hothers
  | cons slot rest ih =>
    cases slot with
    | none =>
      obtain ⟨ids, rfl, h⟩ := h
      exact ⟨ids ++ more, rfl, ih h⟩
    | some child =>
      obtain ⟨id, ids, first, second, rfl, hchild, hrest, rfl⟩ := h
      exact ⟨id, ids ++ more, first, second ++ last, rfl, hchild, ih hrest, by simp⟩

theorem DepictsSlots.sublist {trees : List Tree} {ids order : List NodeId}
    (h : builder.DepictsSlots (trees.map some) (ids.map some) order) : ids.Sublist order := by
  induction trees generalizing ids order with
  | nil =>
    obtain ⟨hids, rfl⟩ := h
    rw [List.map_eq_nil_iff] at hids
    rw [hids]
  | cons tree trees ih =>
    obtain ⟨id, others, first, last, hids, hchild, hrest, rfl⟩ := h
    obtain ⟨_, ids, rfl, hid, rfl⟩ := List.map_eq_cons_iff.1 hids
    cases hid
    exact (List.singleton_sublist.2 hchild.mem_self).append (ih hrest)

/-! ### Attaching the children -/

theorem attach_of_free {parent child : NodeId} (index : Nat) {holder held : Slot}
    (hne : parent ≠ child) (hparent : builder.slot? parent = some holder)
    (hopen : holder.stage = .opened) (hchild : builder.slot? child = some held)
    (hfree : held.parent = none) :
    ∃ built, builder.attach parent child index = .ok built ∧
      Attaches builder built parent child index holder := by
  unfold attach
  rw [if_neg hne, hparent, hchild]
  dsimp only
  rw [if_neg (by simp [hopen]), hfree]
  exact ⟨_, rfl, hne, hparent, hopen, ⟨held, hchild, hfree⟩, slot?_attached hne index holder⟩

theorem place_length (child : NodeId) (slots : List (Option NodeId)) :
    place child slots.length slots = slots ++ [some child] := by
  rw [place, Nat.add_sub_cancel_left, List.set_append_right _ _ (Nat.le_refl _), Nat.sub_self]
  rfl

/-- The nodes after `ids` have been attached to `id`, after the children that it had. -/
def Attached (builder built : Builder) (id : NodeId) (ids : List NodeId) : Prop :=
  ∀ n, built.slot? n = (builder.slot? n).map fun slot =>
    { slot with
      parent := if n ∈ ids then some id else slot.parent
      children := if n = id then slot.children ++ ids.map some else slot.children }

theorem attached_foldlM {id : NodeId} {ids : List NodeId} {holder : Slot}
    (hid : builder.slot? id = some holder) (hopen : holder.stage = .opened)
    (hfree : ∀ c ∈ ids, c ≠ id ∧ ∃ held, builder.slot? c = some held ∧ held.parent = none)
    (hnodup : ids.Nodup) :
    ∃ built, ((ids.map some).zipIdx holder.children.length).foldlM
        (fun built (child, index) =>
          match child with
          | some child => built.attach id child index
          | none => .ok built) builder = .ok built ∧
      Attached builder built id ids := by
  induction ids generalizing builder holder with
  | nil =>
    refine ⟨builder, rfl, fun n => ?_⟩
    simp
  | cons c rest ih =>
    obtain ⟨hne, held, hheld, hparent⟩ := hfree c List.mem_cons_self
    obtain ⟨next, hattach, attaches⟩ := attach_of_free holder.children.length
      (Ne.symm hne) hid hopen hheld hparent
    have hslot : ∀ n, next.slot? n = (builder.slot? n).map fun slot =>
        { slot with
          parent := if n = c then some id else slot.parent
          children := if n = id then slot.children ++ [some c] else slot.children } := by
      intro n
      rw [attaches.slot?]
      by_cases hn : n = id
      · subst hn
        simp [hid, place_length]
      · simp [hn]
    have hid' : next.slot? id = some { holder with children := holder.children ++ [some c] } := by
      rw [hslot, hid, Option.map_some, if_neg (Ne.symm hne), if_pos rfl]
    -- The nodes still to be attached are as free as before.
    have hfree' : ∀ d ∈ rest, d ≠ id ∧ ∃ held, next.slot? d = some held ∧ held.parent = none := by
      intro d hd
      obtain ⟨hdid, held, hheld, hparent⟩ := hfree d (List.mem_cons_of_mem _ hd)
      have hdc : d ≠ c := fun heq => (List.nodup_cons.1 hnodup).1 (heq ▸ hd)
      exact ⟨hdid, _, by rw [hslot, hheld]; rfl, by simp [hdc, hparent]⟩
    obtain ⟨built, hbuilt, hattached⟩ := ih hid' hopen hfree' (List.nodup_cons.1 hnodup).2
    refine ⟨built, ?_, fun n => ?_⟩
    · rw [List.length_append] at hbuilt
      rw [List.map_cons, List.zipIdx_cons, List.foldlM_cons]
      exact bind_eq_ok_iff.2 ⟨next, hattach, hbuilt⟩
    · rw [hattached, hslot, Option.map_map]
      refine congrArg (Option.map · (builder.slot? n)) (funext fun slot => ?_)
      have hparent : (if n ∈ rest then some id else if n = c then some id else slot.parent) =
          if n ∈ c :: rest then some id else slot.parent := by
        by_cases hc : n = c <;> simp [hc]
      dsimp only [Function.comp]
      rw [hparent]
      by_cases hn : n = id <;> simp [hn]

namespace Attached
variable {id : NodeId} {ids : List NodeId}

theorem content?_of_ne (h : Attached builder built id ids) {n : NodeId} (hn : n ≠ id) :
    built.content? n = builder.content? n := by
  simp [content?, h n, hn, Function.comp_def]

theorem slot?_of_not_mem (h : Attached builder built id ids) {n : NodeId} (hid : n ≠ id)
    (hn : n ∉ ids) : built.slot? n = builder.slot? n := by
  simp [h n, hid, hn]

end Attached

/-! ### Splicing -/

theorem expansion_of_depicts {kind : Kind} {tree : Tree} {id : NodeId} {order : List NodeId}
    (h : builder.Depicts tree id order) :
    builder.expansion kind (some id) =
      if tree.kind = kind then builder.children id else [some id] := by
  cases tree with
  | node body slots =>
    obtain ⟨held, below, hheld, _, rfl, _, _⟩ := h
    have hkind : (Tree.node held.body slots).kind = held.kind := rfl
    rw [hkind, expansion]
    by_cases hk : held.kind = kind
    · rw [if_pos hk, absorbed?_eq_some_iff.2 ⟨rfl, held, hheld, hk⟩]
    · have hnone : builder.absorbed? kind (some id) = none := by
        rw [Option.eq_none_iff_forall_ne_some]
        intro a ha
        obtain ⟨heq, held', hheld', hk'⟩ := absorbed?_eq_some_iff.1 ha
        cases heq
        rw [hheld] at hheld'
        cases hheld'
        exact hk hk'
      rw [if_neg hk, hnone]

theorem mem_absorbed_cons {kind : Kind} {tree : Tree} {id n : NodeId} {order : List NodeId}
    {ids : List (Option NodeId)} (h : builder.Depicts tree id order)
    (hn : n ∈ builder.absorbed kind (some id :: ids)) :
    (n = id ∧ tree.kind = kind) ∨ n ∈ builder.absorbed kind ids := by
  obtain ⟨hmem, held, hheld, hkind⟩ := mem_absorbed_iff.1 hn
  rcases List.mem_cons.1 hmem with heq | hmem
  · cases heq
    cases tree with
    | node body slots =>
      obtain ⟨held', _, hheld', _, rfl, _⟩ := h
      rw [hheld] at hheld'
      cases hheld'
      exact .inl ⟨rfl, hkind⟩
  · exact .inr (mem_absorbed_iff.2 ⟨hmem, held, hheld, hkind⟩)

/-- The slots after splicing depict what is spread; the absorbed nodes are listed no more. -/
theorem DepictsSlots.spread (kind : Kind) {trees : List Tree} {ids order : List NodeId}
    (h : builder.DepictsSlots (trees.map some) (ids.map some) order) (hnodup : order.Nodup) :
    ∃ order', order'.Sublist order ∧
      builder.DepictsSlots (trees.flatMap (Tree.spread kind))
        (builder.spliced kind (ids.map some)) order' ∧
      ∀ n ∈ order', n ∉ builder.absorbed kind (ids.map some) := by
  induction trees generalizing ids order with
  | nil =>
    obtain ⟨hids, rfl⟩ := h
    rw [hids]
    exact ⟨[], .slnil, ⟨rfl, rfl⟩, by simp⟩
  | cons tree trees ih =>
    obtain ⟨id, others, first, last, hids, hchild, hrest, rfl⟩ := h
    obtain ⟨_, ids, rfl, hid, rfl⟩ := List.map_eq_cons_iff.1 hids
    cases hid
    obtain ⟨hfirst, hlast, hapart⟩ := List.nodup_append.1 hnodup
    obtain ⟨last', hsub, hspread, hnot⟩ := ih hrest hlast
    have hin : ∀ n ∈ builder.absorbed kind (ids.map some), n ∈ last := fun n hn =>
      hrest.mem_of_child (mem_absorbed_iff.1 hn).1
    have hsplit : ∀ first', first'.Sublist first →
        (∀ n ∈ first', ¬ (n = id ∧ tree.kind = kind)) →
        ∀ n ∈ first' ++ last', n ∉ builder.absorbed kind (some id :: ids.map some) := by
      intro first' hsub' hfirst' n hn habsorbed
      rcases mem_absorbed_cons hchild habsorbed with hself | habsorbed
      · rcases List.mem_append.1 hn with hn | hn
        · exact hfirst' n hn hself
        · exact hapart n (hself.1 ▸ hchild.mem_self) n (hsub.mem hn) rfl
      · rcases List.mem_append.1 hn with hn | hn
        · exact hapart n (hsub'.mem hn) n (hin n habsorbed) rfl
        · exact hnot n hn habsorbed
    rw [List.flatMap_cons, List.map_cons, spliced, List.flatMap_cons, expansion_of_depicts hchild,
      Tree.spread]
    by_cases hkind : tree.kind = kind
    · cases tree with
      | node body slots =>
        obtain ⟨held, below, hheld, hclosed, hbody, hslots, rfl⟩ := hchild
        have hchildren : builder.children id = held.children := by simp [children, hheld]
        rw [if_pos hkind, if_pos hkind, hchildren]
        refine ⟨below ++ last', (List.sublist_cons_self id below).append hsub,
          hslots.append hspread, hsplit below (List.sublist_cons_self id below) ?_⟩
        rintro n hn ⟨rfl, _⟩
        exact (List.nodup_cons.1 hfirst).1 hn
    · rw [if_neg hkind, if_neg hkind]
      refine ⟨first ++ last', (List.Sublist.refl first).append hsub, ?_, hsplit first (.refl _) ?_⟩
      · exact ⟨id, _, first, last', rfl, hchild, hspread, rfl⟩
      · exact fun n _ hself => hkind hself.2

theorem spliced_of_absorbed {kind : Kind} {slots : List (Option NodeId)}
    (h : builder.absorbed kind slots = []) : builder.spliced kind slots = slots := by
  induction slots with
  | nil => rfl
  | cons slot rest ih =>
    rw [absorbed, List.filterMap_cons] at h
    rw [spliced, List.flatMap_cons, expansion]
    cases hslot : builder.absorbed? kind slot with
    | none =>
      rw [hslot] at h
      exact congrArg (slot :: ·) (ih h)
    | some c =>
      rw [hslot] at h
      cases h

section Flatten
variable {id : NodeId} {slot : Slot} {trees : List Tree} {ids order : List NodeId}

theorem flatten_depicts (hid : builder.slot? id = some slot) (hclosed : slot.stage = .closed)
    (hchildren : slot.children = ids.map some)
    (h : builder.DepictsSlots (trees.map some) (ids.map some) order)
    (hnodup : (id :: order).Nodup) :
    ∃ built order', builder.flatten id = .ok built ∧ order'.Sublist order ∧
      built.Depicts (.node slot.body (trees.flatMap (Tree.spread slot.kind))) id (id :: order') ∧
      built.parent? id = slot.parent ∧
      ∀ n, n ≠ id → n ∉ order → built.slot? n = builder.slot? n := by
  obtain ⟨hfresh, horder⟩ := List.nodup_cons.1 hnodup
  obtain ⟨order', hsub, hspread, hnot⟩ := h.spread slot.kind horder
  rw [← hchildren] at hspread hnot
  have habsorbed : ∀ n ∈ builder.absorbed slot.kind slot.children, n ∈ order := fun n hn =>
    h.mem_of_child (hchildren ▸ (mem_absorbed_iff.1 hn).1)
  have hspliced : ∀ n, some n ∈ builder.spliced slot.kind slot.children → n ∈ order := fun n hn =>
    hsub.mem (hspread.mem_of_child hn)
  -- With nothing to absorb the builder is left as it is.
  by_cases hnone : builder.absorbed slot.kind slot.children = []
  · rw [spliced_of_absorbed hnone] at hspread
    refine ⟨builder, order', by rw [flatten_eq hid, if_pos hnone], hsub,
      ⟨slot, order', hid, hclosed, rfl, hspread, rfl⟩, by simp [parent?, hid], fun _ _ _ => rfl⟩
  · obtain ⟨built, hbuilt, splices⟩ := splices_flatten hid hnone
    have hslot : built.slot? id = some
        { slot with children := builder.spliced slot.kind slot.children } := by
      rw [splices.slot?, hid, Option.map_some, if_pos rfl,
        if_neg fun h => hfresh (hspliced id h), if_neg fun h => hfresh (habsorbed id h)]
    refine ⟨built, order', hbuilt, hsub, ⟨_, order', hslot, hclosed, rfl, ?_, rfl⟩, ?_, ?_⟩
    · refine hspread.congr fun n hn => ?_
      have hne : n ≠ id := fun heq => hfresh (heq ▸ hsub.mem hn)
      simp [content?, splices.slot?, hne, hnot n hn, Function.comp_def]
    · simp [parent?, hslot]
    · intro n hne hn
      rw [splices.slot?]
      have hnot' : some n ∉ builder.spliced slot.kind slot.children := fun h => hn (hspliced n h)
      have hnot'' : n ∉ builder.absorbed slot.kind slot.children := fun h => hn (habsorbed n h)
      simp [hne, hnot', hnot'']

theorem close_depicts (hid : builder.slot? id = some slot) (hopen : slot.stage = .opened)
    (hchildren : slot.children = ids.map some)
    (h : builder.DepictsSlots (trees.map some) (ids.map some) order)
    (hnodup : (id :: order).Nodup) :
    ∃ built order', builder.close id = .ok built ∧ order'.Sublist order ∧
      built.Depicts (.joined slot.body trees) id (id :: order') ∧
      built.parent? id = slot.parent ∧
      ∀ n, n ≠ id → n ∉ order → built.slot? n = builder.slot? n := by
  have hother : ∀ n, n ≠ id →
      (builder.modify id fun slot => { slot with stage := .closed }).slot? n = builder.slot? n := by
    intro n hn
    rw [slot?_modify, if_neg hn]
  have hclosed : (builder.modify id fun slot => { slot with stage := .closed }).slot? id =
      some { slot with stage := .closed } := by
    rw [slot?_modify, if_pos rfl, hid, Option.map_some]
  have hslots : (builder.modify id fun slot => { slot with stage := .closed }).DepictsSlots
      (trees.map some) (ids.map some) order := by
    refine h.congr fun n hn => ?_
    rw [content?, hother n fun heq => (List.nodup_cons.1 hnodup).1 (heq ▸ hn), content?]
  unfold close
  rw [hid]
  simp only [hopen]
  rw [Tree.joined]
  by_cases hflattens : slot.body.flattens
  · rw [if_pos hflattens, if_pos hflattens]
    obtain ⟨built, order', hbuilt, hsub, hdepicts, hparent, hframe⟩ :=
      flatten_depicts hclosed rfl hchildren hslots hnodup
    refine ⟨built, order', hbuilt, hsub, hdepicts, hparent, fun n hne hn => ?_⟩
    rw [hframe n hne hn, hother n hne]
  · rw [if_neg hflattens, if_neg hflattens]
    refine ⟨_, order, rfl, .refl order, ?_, by simp [parent?, hid], fun n hne _ => hother n hne⟩
    exact ⟨_, order, hclosed, rfl, rfl, hchildren ▸ hslots, rfl⟩

end Flatten

/-! ### A new node -/

theorem open_node (builder : Builder) (body : Body) :
    ∃ opened, (builder.node body).2.open builder.slots.size = .ok opened ∧
      opened.slot? builder.slots.size = some { body, stage := .opened } ∧
      ∀ n, n ≠ builder.slots.size → opened.slot? n = builder.slot? n := by
  have hnew : (builder.node body).2.slot? builder.slots.size = some { body } := by
    rw [slot?_node, if_pos rfl]
  refine ⟨(builder.node body).2.modify builder.slots.size fun slot =>
    { slot with stage := .opened }, ?_, ?_, ?_⟩
  · rw [Builder.open, hnew]
    rfl
  · rw [slot?_modify, if_pos rfl, hnew]
    rfl
  · intro n hn
    rw [slot?_modify, if_neg hn, slot?_node, if_neg hn]

theorem branch_depicts {body : Body} {trees : List Tree} {ids order : List NodeId}
    (h : builder.DepictsSlots (trees.map some) (ids.map some) order) (hnodup : order.Nodup)
    (hfree : ∀ c ∈ ids, builder.parent? c = none) :
    ∃ built order', builder.branch body (ids.map some) = .ok (builder.slots.size, built) ∧
      order'.Sublist order ∧
      built.Depicts (.joined body trees) builder.slots.size (builder.slots.size :: order') ∧
      built.parent? builder.slots.size = none ∧
      ∀ n, n ≠ builder.slots.size → n ∉ order → built.slot? n = builder.slot? n := by
  -- What is depicted is there already, and so none of it is the new node.
  have hknown : ∀ n ∈ order, n ≠ builder.slots.size := by
    rintro n hn rfl
    obtain ⟨held, hheld, _⟩ := h.closed hn
    rw [slot?_size] at hheld
    cases hheld
  obtain ⟨opened, hopen, hid, hother⟩ := open_node builder body
  have hfree' : ∀ c ∈ ids, c ≠ builder.slots.size ∧
      ∃ held, opened.slot? c = some held ∧ held.parent = none := by
    intro c hc
    have hmem := h.sublist.mem hc
    obtain ⟨held, hheld, _⟩ := h.closed hmem
    refine ⟨hknown c hmem, held, by rw [hother c (hknown c hmem), hheld], ?_⟩
    simpa [parent?, hheld] using hfree c hc
  obtain ⟨attached, hattach, hattached⟩ := attached_foldlM hid rfl hfree' (hnodup.sublist h.sublist)
  have hslots : attached.DepictsSlots (trees.map some) (ids.map some) order := by
    refine h.congr fun n hn => ?_
    rw [hattached.content?_of_ne (hknown n hn), content?, hother n (hknown n hn), content?]
  have hid' : attached.slot? builder.slots.size = some
      { body, stage := .opened, children := ids.map some } := by
    rw [hattached, hid, Option.map_some, if_pos rfl,
      if_neg fun hmem => hknown _ (h.sublist.mem hmem) rfl]
    rfl
  obtain ⟨built, order', hclose, hsub, hdepicts, hparent, hframe⟩ :=
    close_depicts hid' rfl rfl hslots (List.nodup_cons.2 ⟨fun hmem => hknown _ hmem rfl, hnodup⟩)
  refine ⟨built, order', ?_, hsub, hdepicts, hparent, fun n hne hn => ?_⟩
  · refine bind_eq_ok_iff.2 ⟨opened, hopen, bind_eq_ok_iff.2 ⟨attached, hattach, ?_⟩⟩
    exact bind_eq_ok_iff.2 ⟨built, hclose, rfl⟩
  · rw [hframe n hne hn, hattached.slot?_of_not_mem hne fun hmem => hn (h.sublist.mem hmem),
      hother n hne]

/-! ### Back to the tree -/

theorem collect_slots {depth : Nat} {slots : List (Option Tree)} {ids : List (Option NodeId)}
    {order : List NodeId} (h : builder.DepictsSlots slots ids order)
    (hcollect : ∀ tree id order, builder.Depicts tree id order → tree.size ≤ depth →
      builder.collect depth id = .ok tree) (hsize : Tree.sizeSlots slots ≤ depth) :
    ids.mapM (fun slot => slot.mapM (builder.collect depth)) = .ok slots := by
  induction slots generalizing ids order with
  | nil =>
    obtain ⟨rfl, rfl⟩ := h
    rfl
  | cons slot rest ih =>
    rw [Tree.sizeSlots.eq_def] at hsize
    cases slot with
    | none =>
      obtain ⟨others, rfl, h⟩ := h
      rw [List.mapM_cons, ih h hsize]
      rfl
    | some child =>
      obtain ⟨id, others, first, last, rfl, hchild, hrest, rfl⟩ := h
      dsimp only at hsize
      rw [List.mapM_cons, Option.mapM_some, ih hrest (by omega),
        hcollect child id first hchild (by omega)]
      rfl

theorem Depicts.collect {depth : Nat} {tree : Tree} {id : NodeId} {order : List NodeId}
    (h : builder.Depicts tree id order) (hsize : tree.size ≤ depth) :
    builder.collect depth id = .ok tree := by
  induction depth generalizing tree id order with
  | zero => exact absurd hsize (Nat.not_le_of_gt tree.size_pos)
  | succ depth ih =>
    cases tree with
    | node body slots =>
      obtain ⟨held, below, hheld, hclosed, rfl, hslots, rfl⟩ := h
      rw [Tree.size] at hsize
      unfold Builder.collect
      rw [hheld]
      dsimp only
      rw [if_neg (by simp [hclosed]),
        collect_slots hslots (fun tree id order h hsize => ih h hsize) (by omega)]
      rfl

theorem Depicts.finish {tree : Tree} {root : NodeId} {order : List NodeId}
    (h : builder.Depicts tree root order) (hnodup : order.Nodup)
    (hroot : builder.parent? root = none) : builder.finish root = .ok tree := by
  have hsub : order ⊆ List.range builder.slots.size := by
    intro n hn
    obtain ⟨held, hheld, _⟩ := h.closed hn
    exact List.mem_range.2 (Array.getElem?_eq_some_iff.1 hheld).1
  have hlen := (hnodup.subperm hsub).length_le
  rw [List.length_range, h.length_eq] at hlen
  obtain ⟨held, hheld, _⟩ := h.closed h.mem_self
  unfold Builder.finish
  rw [hheld]
  have hparent : held.parent = none := by simpa [parent?, hheld] using hroot
  simp only [hparent]
  exact h.collect hlen

end Builder
end ObjectNavigation
