import ObjectNavigation.Proofs.Trace.Branch
import ObjectNavigation.Trace.Stack

/-!
Calls in progress. A `Frame` is a record on the stack together with the branches completed below
it; a pool holds a list of frames if each record is linked to the one around it. Parent links lead
from a record of a frame's branches to that frame and on through the frames around it
(`lineage`), which is how it is found out whether the pending failure lies below a record.
-/

namespace ObjectNavigation

def Call.ended (outcome : Except EvalError (Option Value)) (call : Call) : Call :=
  match outcome with
  | .ok (some value) => { call with result := some value }
  | .ok none => call
  | .error error => { call with failure := some error.message }

theorem Call.live_ended (outcome : Except EvalError (Option Value)) (call : Call) :
    (call.ended outcome).live = call.live := by
  unfold ended
  split <;> rfl

theorem Call.parent_ended (outcome : Except EvalError (Option Value)) (call : Call) :
    (call.ended outcome).parent = call.parent := by
  unfold ended
  split <;> rfl

theorem Call.children_ended (outcome : Except EvalError (Option Value)) (call : Call) :
    (call.ended outcome).children = call.children := by
  unfold ended
  split <;> rfl

/-- A record in progress, as it was begun, and the branches completed below it. -/
structure Frame where
  id : CallId
  node : NodeId
  kind : Kind
  object : Value
  setter : Bool
  done : List Branch

namespace Frame
open Branch (idsAll)

/-- The record of a frame below `parent`; `opened` is what is in progress below it. -/
def call (frame : Frame) (parent : Option CallId) (opened : List CallId) : Call where
  node := frame.node
  kind := frame.kind
  source := frame.object
  setter := frame.setter
  parent
  children := frame.done.map Branch.id ++ opened

def close (frame : Frame) (parent : Option CallId)
    (outcome : Except EvalError (Option Value)) : Branch where
  id := frame.id
  call := (frame.call parent []).ended outcome
  inner := frame.done

def grow (frame : Frame) (branches : List Branch) : Frame :=
  { frame with done := frame.done ++ branches }

def ids : List Frame → List CallId
  | [] => []
  | frame :: outer => frame.id :: (idsAll frame.done ++ ids outer)

theorem ids_close (frame : Frame) (parent : Option CallId)
    (outcome : Except EvalError (Option Value)) :
    (frame.close parent outcome).ids = frame.id :: idsAll frame.done := rfl

theorem id_mem_ids {frame : Frame} {frames : List Frame} (h : frame ∈ frames) :
    frame.id ∈ ids frames := by
  induction frames with
  | nil => cases h
  | cons first outer ih =>
    rcases List.mem_cons.1 h with rfl | h
    · exact List.mem_cons_self
    · exact List.mem_cons_of_mem _ (List.mem_append_right _ (ih h))

theorem ids_grow_perm (frame : Frame) (branches : List Branch) (outer : List Frame) :
    (ids (frame.grow branches :: outer)).Perm (idsAll branches ++ ids (frame :: outer)) := by
  simp only [ids, grow, Branch.idsAll_append]
  calc frame.id :: (idsAll frame.done ++ idsAll branches ++ ids outer)
      _ = frame.id :: (idsAll frame.done ++ (idsAll branches ++ ids outer)) := by
        rw [List.append_assoc]
      _ |>.Perm (frame.id :: (idsAll branches ++ (idsAll frame.done ++ ids outer))) := by
        refine .cons _ ?_
        rw [← List.append_assoc, ← List.append_assoc]
        exact List.perm_append_comm.append_right _
      _ |>.Perm (idsAll branches ++ frame.id :: (idsAll frame.done ++ ids outer)) :=
        List.perm_middle.symm

end Frame

namespace Pool
open Branch (ids idsAll)

/-- The pool holds the records of frames, each linked to the one around it; `opened` is what is
in progress below the innermost. -/
def HoldsFrames (pool : Pool) (opened : List CallId) : List Frame → Prop
  | [] => True
  | frame :: outer =>
    pool.get? frame.id = some (frame.call (outer.head?.map Frame.id) opened) ∧
      pool.HoldsAll (some frame.id) frame.done ∧ HoldsFrames pool [frame.id] outer

theorem HoldsFrames.congr {pool other : Pool} {opened : List CallId} {frames : List Frame}
    (holds : pool.HoldsFrames opened frames)
    (same : ∀ x ∈ Frame.ids frames, other.get? x = pool.get? x) :
    other.HoldsFrames opened frames := by
  induction frames generalizing opened with
  | nil => exact trivial
  | cons frame outer ih =>
    obtain ⟨hid, hdone, houter⟩ := holds
    refine ⟨(same _ List.mem_cons_self).trans hid, hdone.congr fun x hx => ?_,
      ih houter fun x hx => ?_⟩
    · exact same x (List.mem_cons_of_mem _ (List.mem_append_left _ hx))
    · exact same x (List.mem_cons_of_mem _ (List.mem_append_right _ hx))

theorem get?_attach (pool : Pool) {parent child : CallId} (h : parent ≠ child) (x : CallId) :
    (pool.attach parent child).get? x =
      if x = parent then
        (pool.get? x).map fun call => { call with children := call.children ++ [child] }
      else if x = child then (pool.get? x).map fun call => { call with parent := some parent }
      else pool.get? x := by
  unfold attach
  rw [get?_modify, get?_modify]
  · by_cases hx : x = parent
    · subst hx
      rw [if_pos rfl, if_neg h, if_pos rfl]
    · rw [if_neg hx, if_neg hx]
  · exact fun _ => rfl
  · exact fun _ => rfl

theorem isSome_get?_attach (pool : Pool) {parent child : CallId} (h : parent ≠ child)
    (x : CallId) : ((pool.attach parent child).get? x).isSome = (pool.get? x).isSome := by
  rw [get?_attach pool h]
  split
  next => simp
  next => split <;> simp

theorem Sound.attach {pool : Pool} (sound : pool.Sound) (parent child : CallId) :
    (pool.attach parent child).Sound := by
  refine (sound.modify child ?_).modify parent ?_
  · exact fun _ => rfl
  · exact fun _ => rfl

/-! ### Parent links -/

/-- Parent links lead from `x` along `path` to `parent`. -/
def Climbs (pool : Pool) (x : CallId) (path : List CallId) (parent : Option CallId) : Prop :=
  ∀ steps, lineage.go pool (path.length + steps) (some x) = path ++ lineage.go pool steps parent

theorem climbs_root {pool : Pool} {id : CallId} {call : Call} (h : pool.get? id = some call) :
    pool.Climbs id [id] call.parent := by
  intro steps
  rw [List.length_singleton, Nat.add_comm, lineage.go, h]
  rfl

theorem Climbs.trans {pool : Pool} {x y : CallId} {path more : List CallId}
    {parent : Option CallId} (first : pool.Climbs x path (some y))
    (second : pool.Climbs y more parent) : pool.Climbs x (path ++ more) parent := by
  intro steps
  rw [List.length_append, Nat.add_assoc, first, second, List.append_assoc]

mutual

/-- Parent links lead out of a branch, through no more records than it has. -/
theorem Holds.climbs {pool : Pool} {parent : Option CallId} {branch : Branch}
    (holds : pool.Holds parent branch) {x : CallId} (hx : x ∈ branch.ids) :
    ∃ path, pool.Climbs x path parent ∧ path.length ≤ branch.ids.length := by
  match branch with
  | ⟨id, call, inner⟩ =>
    obtain ⟨hid, hparent, _, hinner⟩ := holds
    have hroot : pool.Climbs id [id] parent := hparent ▸ climbs_root hid
    rcases List.mem_cons.1 hx with rfl | hx
    · exact ⟨[x], hroot, by simp [ids]⟩
    · obtain ⟨path, hpath, hlength⟩ := hinner.climbs hx
      exact ⟨path ++ [id], hpath.trans hroot, by simp [ids, hlength]⟩

theorem HoldsAll.climbs {pool : Pool} {parent : Option CallId} {branches : List Branch}
    (holds : pool.HoldsAll parent branches) {x : CallId} (hx : x ∈ idsAll branches) :
    ∃ path, pool.Climbs x path parent ∧ path.length ≤ (idsAll branches).length := by
  match branches with
  | branch :: rest =>
    rw [idsAll, List.length_append]
    rcases List.mem_append.1 hx with hx | hx
    · obtain ⟨path, hpath, hlength⟩ := holds.1.climbs hx
      exact ⟨path, hpath, by omega⟩
    · obtain ⟨path, hpath, hlength⟩ := HoldsAll.climbs holds.2 hx
      exact ⟨path, hpath, by omega⟩

end

mutual

/-- The parent of a record of a branch is in the branch too, unless the record is its root. -/
theorem Holds.parent {pool : Pool} {above : Option CallId} {branch : Branch}
    (holds : pool.Holds above branch) {x y : CallId} (hx : x ∈ branch.ids)
    (hy : (pool.get? x).bind Call.parent = some y) : y ∈ branch.ids ∨ above = some y := by
  match branch with
  | ⟨id, call, inner⟩ =>
    obtain ⟨hid, hparent, _, hinner⟩ := holds
    rcases List.mem_cons.1 hx with rfl | hx
    · rw [hid] at hy
      exact .inr (hparent ▸ hy)
    · rcases hinner.parent hx hy with h | h
      · exact .inl (List.mem_cons_of_mem _ h)
      · cases h
        exact .inl List.mem_cons_self

theorem HoldsAll.parent {pool : Pool} {above : Option CallId} {branches : List Branch}
    (holds : pool.HoldsAll above branches) {x y : CallId} (hx : x ∈ idsAll branches)
    (hy : (pool.get? x).bind Call.parent = some y) : y ∈ idsAll branches ∨ above = some y := by
  match branches with
  | branch :: rest =>
    rcases List.mem_append.1 hx with hx | hx
    · exact (holds.1.parent hx hy).imp_left (List.mem_append_left _)
    · exact (HoldsAll.parent holds.2 hx hy).imp_left (List.mem_append_right _)

end

theorem HoldsFrames.parent {pool : Pool} {opened : List CallId} {frames : List Frame}
    (holds : pool.HoldsFrames opened frames) {x y : CallId} (hx : x ∈ Frame.ids frames)
    (hy : (pool.get? x).bind Call.parent = some y) : y ∈ Frame.ids frames := by
  induction frames generalizing opened with
  | nil => cases hx
  | cons frame outer ih =>
    obtain ⟨hid, hdone, houter⟩ := holds
    rcases List.mem_cons.1 hx with rfl | hx
    · rw [hid] at hy
      obtain ⟨around, haround, rfl⟩ := Option.map_eq_some_iff.1 (show Option.map _ _ = _ from hy)
      have hmem := Frame.id_mem_ids (List.mem_of_mem_head? haround)
      exact List.mem_cons_of_mem _ (List.mem_append_right _ hmem)
    · rcases List.mem_append.1 hx with hx | hx
      · rcases hdone.parent hx hy with h | h
        · exact List.mem_cons_of_mem _ (List.mem_append_left _ h)
        · cases h
          exact List.mem_cons_self
      · exact List.mem_cons_of_mem _ (List.mem_append_right _ (ih houter hx))

/-- Parent links do not lead from frames to anything else. -/
theorem HoldsFrames.lineage {pool : Pool} {opened : List CallId} {frames : List Frame}
    (holds : pool.HoldsFrames opened frames) {start : Option CallId}
    (hstart : ∀ x ∈ start, x ∈ Frame.ids frames) :
    ∀ y ∈ pool.lineage start, y ∈ Frame.ids frames := by
  unfold Pool.lineage
  generalize pool.records.size + 1 = steps
  induction steps generalizing start with
  | zero => intro y hy; simp [lineage.go] at hy
  | succ steps ih =>
    cases start with
    | none => intro y hy; simp [lineage.go] at hy
    | some x =>
      intro y hy
      rcases List.mem_cons.1 hy with rfl | hy
      · exact hstart y rfl
      · exact ih (fun z hz => holds.parent (hstart x rfl) hz) y hy

theorem length_le_size {pool : Pool} {ids : List CallId} (nodup : ids.Nodup)
    (live : ∀ x ∈ ids, (pool.get? x).isSome) : ids.length ≤ pool.records.size := by
  have hsubset : ids ⊆ List.range pool.records.size := by
    intro x hx
    obtain ⟨call, hcall⟩ := Option.isSome_iff_exists.1 (live x hx)
    exact List.mem_range.2 (lt_size_of_get? hcall)
  simpa using (nodup.subperm hsubset).length_le

theorem lineage_modify (pool : Pool) (id : CallId) (outcome : Except EvalError (Option Value))
    (start : Option CallId) :
    (pool.modify id (Call.ended outcome)).lineage start = pool.lineage start := by
  have hsize : (pool.modify id (Call.ended outcome)).records.size = pool.records.size := by
    simp [modify]
  have hparent : ∀ x, ((pool.modify id (Call.ended outcome)).get? x).bind Call.parent =
      (pool.get? x).bind Call.parent := by
    intro x
    rw [get?_modify pool id x (Call.live_ended outcome)]
    split
    next => cases pool.get? x <;> simp [Call.parent_ended]
    next => rfl
  unfold lineage
  rw [hsize]
  generalize pool.records.size + 1 = steps
  induction steps generalizing start with
  | zero => rfl
  | succ steps ih =>
    cases start with
    | none => rfl
    | some x => rw [lineage.go, lineage.go, hparent, ih]

end Pool
end ObjectNavigation
