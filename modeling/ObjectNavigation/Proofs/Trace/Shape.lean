import ObjectNavigation.Proofs.Trace.Lineage

/-!
What a trace consists of. `Shape trace frames kept` says that the live records of a trace are those
of the frames in progress and of the branch that is retained, and what its other entries are. A
call that begins pushes a frame; one that ends makes its frame a branch, of the frame around it if
there is one. The end of an outermost call leaves no record but those of the retained branch.
-/

namespace ObjectNavigation

namespace Branch

def failed (branch : Branch) : Bool :=
  branch.call.failure.isSome

mutual

/-- The record of the last call in a branch to fail with no recorded failure below it. -/
def blamed : Branch → Option CallId
  | ⟨id, call, inner⟩ => (blamedAll inner).or (if call.failure.isSome then some id else none)

def blamedAll : List Branch → Option CallId
  | [] => none
  | branch :: rest => (blamedAll rest).or branch.blamed

end

theorem blamedAll_append (left right : List Branch) :
    blamedAll (left ++ right) = (blamedAll right).or (blamedAll left) := by
  induction left with
  | nil => simp [blamedAll]
  | cons branch rest ih => simp [blamedAll, ih, Option.or_assoc]

mutual

theorem mem_ids_of_blamed {branch : Branch} {x : CallId} (h : branch.blamed = some x) :
    x ∈ branch.ids := by
  match branch with
  | ⟨id, call, inner⟩ =>
    rw [blamed, Option.or_eq_some_iff] at h
    rcases h with h | ⟨_, h⟩
    · exact List.mem_cons_of_mem _ (mem_idsAll_of_blamedAll h)
    · split at h
      next => cases h; exact List.mem_cons_self
      next => cases h

theorem mem_idsAll_of_blamedAll {branches : List Branch} {x : CallId}
    (h : blamedAll branches = some x) : x ∈ idsAll branches := by
  match branches with
  | branch :: rest =>
    rw [blamedAll, Option.or_eq_some_iff] at h
    rcases h with h | ⟨_, h⟩
    · exact List.mem_append_right _ (mem_idsAll_of_blamedAll h)
    · exact List.mem_append_left _ (mem_ids_of_blamed h)

end

/-- Where a failed branch is said to have failed. -/
def culprit (branch : Branch) : Option CallId :=
  if branch.failed then branch.blamed else none

end Branch

open Branch (idsAll blamedAll)

namespace Frame

/-- The record of the last innermost failure among the branches of frames. -/
def blamed : List Frame → Option CallId
  | [] => none
  | frame :: outer => (blamedAll frame.done).or (blamed outer)

theorem mem_ids_of_blamed {frames : List Frame} {x : CallId} (h : blamed frames = some x) :
    x ∈ ids frames := by
  induction frames with
  | nil => cases h
  | cons frame outer ih =>
    rw [blamed, Option.or_eq_some_iff] at h
    rcases h with h | ⟨_, h⟩
    · exact List.mem_cons_of_mem _ (List.mem_append_left _ (Branch.mem_idsAll_of_blamedAll h))
    · exact List.mem_cons_of_mem _ (List.mem_append_right _ (ih h))

theorem failed_close (frame : Frame) (parent : Option CallId)
    (outcome : Except EvalError (Option Value)) :
    (frame.close parent outcome).failed = match outcome with
      | .ok _ => false
      | .error _ => true := by
  rcases outcome with error | result | value <;> rfl

end Frame

/-- The records in progress, innermost first, the branch that is retained, and the records that
were created and are in no use yet make up a trace. -/
structure Shape (trace : Trace) (frames : List Frame) (kept : Option Branch)
    (spare : List Branch := []) : Prop where
  sound : trace.pool.Sound
  holds : trace.pool.HoldsFrames [] frames
  holdsKept : trace.pool.HoldsAll none (spare ++ kept.toList)
  nodup : (Frame.ids frames ++ idsAll (spare ++ kept.toList)).Nodup
  live : ∀ x, (trace.pool.get? x).isSome ↔ x ∈ Frame.ids frames ++ idsAll (spare ++ kept.toList)
  current : trace.current = frames.head?.map Frame.id
  root : trace.root = frames.getLast?.map Frame.id
  last : trace.last = kept.map Branch.id
  failed : trace.failed = kept.bind Branch.culprit
  pending : trace.pending = Frame.blamed frames

namespace Shape
variable {trace : Trace} {frames outer : List Frame} {frame : Frame} {kept : Option Branch}
  {spare : List Branch}

theorem empty : Shape {} [] none where
  sound := .empty
  holds := trivial
  holdsKept := trivial
  nodup := .nil
  live x := by simp [Pool.get?, Frame.ids, idsAll]
  current := rfl
  root := rfl
  last := rfl
  failed := rfl
  pending := rfl

theorem nodup_frames (shape : Shape trace frames kept spare) : (Frame.ids frames).Nodup :=
  (List.nodup_append.1 shape.nodup).1

theorem not_mem_of_get?_eq_none (shape : Shape trace frames kept spare) {x : CallId}
    (h : trace.pool.get? x = none) : x ∉ Frame.ids frames ++ idsAll (spare ++ kept.toList) := by
  intro hx
  rw [← shape.live, h] at hx
  cases hx

theorem perm {others : List Branch} (shape : Shape trace frames kept spare)
    (h : spare.Perm others) : Shape trace frames kept others := by
  have hall : (spare ++ kept.toList).Perm (others ++ kept.toList) := h.append_right _
  have hids := (Branch.idsAll_perm hall).append_left (Frame.ids frames)
  exact ⟨shape.sound, shape.holds, shape.holdsKept.perm hall, hids.nodup_iff.1 shape.nodup,
    fun x => (shape.live x).trans hids.mem_iff, shape.current, shape.root, shape.last,
    shape.failed, shape.pending⟩

/-! ### Where the pending failure lies -/

theorem mem_lineage_of_blamed (shape : Shape trace (frame :: outer) kept spare) {x : CallId}
    (h : blamedAll frame.done = some x) : frame.id ∈ trace.pool.lineage (some x) := by
  obtain ⟨hid, hdone, _⟩ := shape.holds
  obtain ⟨path, hpath, hlength⟩ := hdone.climbs (Branch.mem_idsAll_of_blamedAll h)
  have hsize : (idsAll frame.done).length ≤ trace.pool.records.size := by
    refine Pool.length_le_size ?_ fun y hy => (shape.live y).2 ?_
    · exact (List.nodup_append.1 (List.nodup_cons.1 shape.nodup_frames).2).1
    · exact List.mem_append_left _ (List.mem_cons_of_mem _ (List.mem_append_left _ hy))
  -- the steps suffice to leave the branches and to go one further
  obtain ⟨steps, hsteps⟩ := Nat.exists_eq_add_of_le (Nat.le_trans hlength hsize)
  rw [Pool.lineage, hsteps, Nat.add_assoc, hpath]
  exact List.mem_append_right _ List.mem_cons_self

theorem not_mem_lineage_outer (shape : Shape trace (frame :: outer) kept spare) :
    frame.id ∉ trace.pool.lineage (Frame.blamed outer) := by
  obtain ⟨_, _, houter⟩ := shape.holds
  intro h
  have hmem := houter.lineage (fun x hx => Frame.mem_ids_of_blamed hx) _ h
  exact (List.nodup_cons.1 shape.nodup_frames).1 (List.mem_append_right _ hmem)

/-- The pending failure is below the innermost frame if a failure is recorded there. -/
theorem failsBelow_eq (shape : Shape trace (frame :: outer) kept spare) :
    trace.failsBelow frame.id = (blamedAll frame.done).isSome := by
  rw [Trace.failsBelow, shape.pending, Frame.blamed, List.contains_eq_mem]
  cases h : blamedAll frame.done with
  | some x => exact decide_eq_true (shape.mem_lineage_of_blamed h)
  | none => exact decide_eq_false shape.not_mem_lineage_outer

/-! ### Beginning a call -/

section Beginning
variable {node : NodeId} {kind : Kind} {object : Value} {setter : Bool} {id : CallId} {pool : Pool}

theorem create (shape : Shape trace frames kept spare)
    (creates : Pool.Creates trace.pool node kind object setter id pool) :
    Shape { trace with pool } frames kept
      (⟨id, { node, kind, source := object, setter }, []⟩ :: spare) := by
  have hfresh := shape.not_mem_of_get?_eq_none creates.fresh
  have hsame : ∀ x ∈ Frame.ids frames ++ idsAll (spare ++ kept.toList),
      pool.get? x = trace.pool.get? x := by
    intro x hx
    have hne : x ≠ id := fun h => hfresh (h ▸ hx)
    rw [creates.get?, if_neg hne]
  have hperm : (Frame.ids frames ++ id :: idsAll (spare ++ kept.toList)).Perm
      (id :: (Frame.ids frames ++ idsAll (spare ++ kept.toList))) := List.perm_middle
  refine ⟨creates.sound, shape.holds.congr fun x hx => hsame x (List.mem_append_left _ hx),
    ⟨⟨?_, rfl, rfl, trivial⟩,
      shape.holdsKept.congr fun x hx => hsame x (List.mem_append_right _ hx)⟩,
    hperm.nodup_iff.2 (List.nodup_cons.2 ⟨hfresh, shape.nodup⟩), fun x => ?_, shape.current,
    shape.root, shape.last, shape.failed, shape.pending⟩
  · rw [creates.get?, if_pos rfl]
  · rw [creates.isSome_get?_iff, shape.live]
    exact List.mem_cons.symm.trans hperm.mem_iff.symm

theorem push_outermost
    (shape : Shape trace [] kept (⟨id, { node, kind, source := object, setter }, []⟩ :: spare)) :
    Shape (trace.push id) [⟨id, node, kind, object, setter, []⟩] kept spare := by
  have hcurrent : trace.current = none := shape.current
  have hpush : trace.push id =
      { trace with root := some id, pending := none, current := some id } := by
    simp only [Trace.push, hcurrent]
  rw [hpush]
  exact ⟨shape.sound, ⟨shape.holdsKept.1.get?, trivial, trivial⟩, shape.holdsKept.2, shape.nodup,
    shape.live, rfl, rfl, shape.last, shape.failed, rfl⟩

theorem push_nested (shape : Shape trace (frame :: outer) kept
      (⟨id, { node, kind, source := object, setter }, []⟩ :: spare)) :
    Shape (trace.push id) (⟨id, node, kind, object, setter, []⟩ :: frame :: outer) kept spare := by
  have hcurrent : trace.current = some frame.id := shape.current
  have hpush : trace.push id =
      { trace with pool := trace.pool.attach frame.id id, current := some id } := by
    simp only [Trace.push, hcurrent]
  have hperm : (Frame.ids (frame :: outer) ++ id :: idsAll (spare ++ kept.toList)).Perm
      (id :: (Frame.ids (frame :: outer) ++ idsAll (spare ++ kept.toList))) := List.perm_middle
  have hnodup : (id :: (Frame.ids (frame :: outer) ++ idsAll (spare ++ kept.toList))).Nodup :=
    hperm.nodup_iff.1 shape.nodup
  have hfresh := (List.nodup_cons.1 hnodup).1
  have houtside := (List.nodup_cons.1 (List.nodup_cons.1 hnodup).2).1
  obtain ⟨hid, hdone, houter⟩ := shape.holds
  have hne : frame.id ≠ id := fun h => hfresh (h ▸ List.mem_cons_self)
  -- only the frame that was innermost changes, and the record that is pushed
  have hsame : ∀ x ∈ idsAll frame.done ++ Frame.ids outer ++ idsAll (spare ++ kept.toList),
      (trace.pool.attach frame.id id).get? x = trace.pool.get? x := by
    intro x hx
    have hx' : x ≠ frame.id := fun h => houtside (h ▸ hx)
    have hx'' : x ≠ id := fun h => hfresh (h ▸ List.mem_cons_of_mem _ hx)
    rw [Pool.get?_attach _ hne, if_neg hx', if_neg hx'']
  rw [hpush]
  refine ⟨shape.sound.attach frame.id id,
    ⟨?_, trivial, ?_, hdone.congr fun x hx => ?_, houter.congr fun x hx => ?_⟩,
    shape.holdsKept.2.congr fun x hx => ?_, hnodup, fun x => ?_, rfl, shape.root, shape.last,
    shape.failed, shape.pending⟩
  · rw [Pool.get?_attach _ hne, if_neg hne.symm, if_pos rfl, shape.holdsKept.1.get?]
    rfl
  · rw [Pool.get?_attach _ hne, if_pos rfl, hid]
    simp [Frame.call]
  · exact hsame x (List.mem_append_left _ (List.mem_append_left _ hx))
  · exact hsame x (List.mem_append_left _ (List.mem_append_right _ hx))
  · exact hsame x (List.mem_append_right _ hx)
  · rw [Pool.isSome_get?_attach _ hne, shape.live]
    exact hperm.mem_iff

theorem push (shape : Shape trace frames kept
      (⟨id, { node, kind, source := object, setter }, []⟩ :: spare)) :
    Shape (trace.push id) (⟨id, node, kind, object, setter, []⟩ :: frames) kept spare := by
  cases frames with
  | nil => exact shape.push_outermost
  | cons frame outer => exact shape.push_nested

theorem begin (shape : Shape trace frames kept spare)
    (creates : Pool.Creates trace.pool node kind object setter id pool) :
    Shape (({ trace with pool } : Trace).push id)
      (⟨id, node, kind, object, setter, []⟩ :: frames) kept spare :=
  (shape.create creates).push

end Beginning

end Shape
end ObjectNavigation
