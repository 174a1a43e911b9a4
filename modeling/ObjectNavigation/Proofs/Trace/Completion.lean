import ObjectNavigation.Proofs.Trace.Shape

/-!
The end of a call. The record of a nested call becomes a branch of the frame around it. The record
of an outermost call is retained if the call failed or is to be kept, in place of what was retained
before, and is given back otherwise; either way nothing else stays live. A reset gives back what is
retained and, if calls are in progress, the frames with all their branches (`Shape.reset`).
-/

namespace ObjectNavigation
open Branch (idsAll blamedAll)

/-! ### Pools that hold finished branches only -/

/-- The live records are those of the branches. -/
structure Pool.Stores (pool : Pool) (branches : List Branch) : Prop where
  sound : pool.Sound
  holds : pool.HoldsAll none branches
  nodup : (idsAll branches).Nodup
  live : ∀ x, (pool.get? x).isSome ↔ x ∈ idsAll branches

namespace Pool.Stores
variable {pool : Pool} {first : Branch} {rest : List Branch}

theorem perm {branches others : List Branch} (stores : pool.Stores branches)
    (hperm : branches.Perm others) : pool.Stores others := by
  have hids := Branch.idsAll_perm hperm
  exact ⟨stores.sound, stores.holds.perm hperm, hids.nodup_iff.1 stores.nodup,
    fun x => (stores.live x).trans hids.mem_iff⟩

theorem recycle (stores : pool.Stores (first :: rest)) :
    (pool.recycleAll first.id).1.Stores rest := by
  obtain ⟨hfirst, hrest, hdisjoint⟩ := List.nodup_append.1 stores.nodup
  obtain ⟨hsound, hget, _⟩ := recycleAll_branch stores.sound stores.holds.1 hfirst
  refine ⟨hsound, stores.holds.2.congr fun x hx => ?_, hrest, fun x => ?_⟩
  · rw [hget, if_neg fun hx' => hdisjoint x hx' x hx rfl]
  · rw [hget]
    have hlive := stores.live x
    split
    next hx =>
      exact iff_of_false (by simp) fun hx' => hdisjoint x hx x hx' rfl
    next hx => simpa [idsAll, hx] using hlive

end Pool.Stores

theorem Trace.enter_eq (trace : Trace) (id : CallId)
    (outcome : Except EvalError (Option Value)) :
    trace.enter id outcome = { trace with pool := trace.pool.modify id (Call.ended outcome) } := rfl

namespace Shape
variable {trace : Trace} {frame around : Frame} {outer : List Frame} {kept : Option Branch}
  {spare : List Branch}

theorem stores (shape : Shape trace [] kept spare) : trace.pool.Stores (spare ++ kept.toList) :=
  ⟨shape.sound, shape.holdsKept, shape.nodup, shape.live⟩

theorem of_stores (stores : trace.pool.Stores (spare ++ kept.toList))
    (current : trace.current = none) (root : trace.root = none)
    (last : trace.last = kept.map Branch.id)
    (failed : trace.failed = kept.bind Branch.culprit) (pending : trace.pending = none) :
    Shape trace [] kept spare :=
  ⟨stores.sound, trivial, stores.holds, stores.nodup, stores.live, current, root, last, failed,
    pending⟩

/-! ### Taking a record off the stack -/

theorem pop_eq (shape : Shape trace (frame :: outer) kept spare) :
    trace.pop = (some frame.id,
      { trace with
        current := outer.head?.map Frame.id, root := outer.getLast?.map Frame.id }) := by
  have hcurrent : trace.current = some frame.id := shape.current
  obtain ⟨hid, _, _⟩ := shape.holds
  have hroot : (if (outer.head?.map Frame.id).isNone then none else trace.root) =
      outer.getLast?.map Frame.id := by
    rw [shape.root]
    cases outer <;> simp
  simp only [Trace.pop, hcurrent, hid]
  rw [← hroot]
  rfl

/-- The trace after the record of a frame has been taken off and has received its outcome. -/
theorem marked_eq (shape : Shape trace (frame :: outer) kept spare)
    (outcome : Except EvalError (Option Value)) {branch : Branch}
    (hbranch : frame.close (outer.head?.map Frame.id) outcome = branch) :
    ((trace.pop).2.enter frame.id outcome).markPending frame.id branch.failed =
      { trace with
        pool := trace.pool.modify frame.id (Call.ended outcome)
        current := outer.head?.map Frame.id
        root := outer.getLast?.map Frame.id
        pending := branch.blamed.or (Frame.blamed outer) } := by
  have hblamed : branch.blamed =
      (blamedAll frame.done).or (if branch.failed then some frame.id else none) := by
    subst hbranch
    rfl
  have hpending : trace.pending = (blamedAll frame.done).or (Frame.blamed outer) := shape.pending
  have hfails : (((trace.pop).2).enter frame.id outcome).failsBelow frame.id =
      (blamedAll frame.done).isSome := by
    rw [← shape.failsBelow_eq, shape.pop_eq]
    exact congrArg (List.contains · frame.id) (Pool.lineage_modify _ _ _ _)
  rw [Trace.markPending, hfails, shape.pop_eq, hblamed, Trace.enter_eq]
  cases hdone : blamedAll frame.done with
  | some x =>
    rw [hdone, Option.some_or] at hpending
    simp [hpending]
  | none =>
    rw [hdone, Option.none_or] at hpending
    cases branch.failed <;> simp [hpending]

theorem complete_eq (shape : Shape trace (frame :: outer) kept spare)
    (outcome : Except EvalError (Option Value)) (keep : Bool) {branch : Branch} {marked : Trace}
    (hbranch : frame.close (outer.head?.map Frame.id) outcome = branch)
    (hmarked : marked =
      { trace with
        pool := trace.pool.modify frame.id (Call.ended outcome)
        current := outer.head?.map Frame.id
        root := outer.getLast?.map Frame.id
        pending := branch.blamed.or (Frame.blamed outer) }) :
    trace.complete frame.id outcome keep =
      if marked.root.isSome then marked else marked.settle frame.id branch.failed keep := by
  rw [hmarked, ← shape.marked_eq outcome hbranch, ← hbranch, Frame.failed_close]
  rfl

theorem holds_close (shape : Shape trace (frame :: outer) kept spare)
    (outcome : Except EvalError (Option Value)) :
    (trace.pool.modify frame.id (Call.ended outcome)).Holds (outer.head?.map Frame.id)
      (frame.close (outer.head?.map Frame.id) outcome) := by
  obtain ⟨hid, hdone, _⟩ := shape.holds
  have hnodup := List.nodup_cons.1 shape.nodup_frames
  refine ⟨?_, ?_, ?_, hdone.congr fun x hx => ?_⟩
  · rw [Pool.get?_modify _ _ _ (Call.live_ended outcome), if_pos rfl, hid]
    rfl
  · rw [Call.parent_ended]
    rfl
  · rw [Call.children_ended]
    simp [Frame.call]
  · have hne : x ≠ frame.id := fun h => hnodup.1 (h ▸ List.mem_append_left _ hx)
    rw [Pool.get?_modify _ _ _ (Call.live_ended outcome), if_neg hne]

theorem isSome_get?_modify (pool : Pool) (id x : CallId)
    (outcome : Except EvalError (Option Value)) :
    ((pool.modify id (Call.ended outcome)).get? x).isSome = (pool.get? x).isSome := by
  rw [Pool.get?_modify _ _ _ (Call.live_ended outcome)]
  split <;> simp

/-- A nested call that ends leaves a branch of the frame around it. -/
theorem complete_nested (shape : Shape trace (frame :: around :: outer) kept spare)
    (outcome : Except EvalError (Option Value)) (keep : Bool) :
    Shape (trace.complete frame.id outcome keep)
      (around.grow [frame.close (some around.id) outcome] :: outer) kept spare := by
  have hclose := shape.holds_close outcome
  rw [shape.complete_eq outcome keep rfl rfl]
  simp only [List.head?_cons, Option.map_some] at hclose ⊢
  obtain ⟨_, _, haround, hdone, houter⟩ := shape.holds
  -- Only the record that ends is written to.
  have hsame : ∀ x ∈ Frame.ids (around :: outer) ++ idsAll (spare ++ kept.toList),
      (trace.pool.modify frame.id (Call.ended outcome)).get? x = trace.pool.get? x := by
    intro x hx
    have hmem : x ∈ idsAll frame.done ++ Frame.ids (around :: outer) ++
        idsAll (spare ++ kept.toList) := by
      rw [List.append_assoc]
      exact List.mem_append_right _ hx
    have hne : x ≠ frame.id := fun h => (List.nodup_cons.1 shape.nodup).1 (h ▸ hmem)
    rw [Pool.get?_modify _ _ _ (Call.live_ended outcome), if_neg hne]
  have hperm : (Frame.ids (around.grow [frame.close (some around.id) outcome] :: outer) ++
      idsAll (spare ++ kept.toList)).Perm
        (Frame.ids (frame :: around :: outer) ++ idsAll (spare ++ kept.toList)) := by
    refine .append_right _ ((Frame.ids_grow_perm around _ outer).trans (.of_eq ?_))
    rw [Branch.idsAll_singleton, Frame.ids_close]
    rfl
  have hroot : ((around :: outer).getLast?.map Frame.id).isSome = true := by simp
  rw [if_pos hroot]
  refine ⟨shape.sound.modify _ (Call.live_ended outcome),
    ⟨?_, Pool.holdsAll_append.2 ⟨hdone.congr fun x hx => ?_, hclose, trivial⟩,
      houter.congr fun x hx => ?_⟩, shape.holdsKept.congr fun x hx => ?_,
    hperm.nodup_iff.2 shape.nodup, fun x => ?_, rfl, ?_, shape.last, shape.failed, ?_⟩
  · refine (hsame _ (List.mem_append_left _ List.mem_cons_self)).trans (haround.trans ?_)
    simp [Frame.call, Frame.grow, Frame.close]
  · exact hsame x (List.mem_append_left _ (List.mem_cons_of_mem _ (List.mem_append_left _ hx)))
  · exact hsame x (List.mem_append_left _ (List.mem_cons_of_mem _ (List.mem_append_right _ hx)))
  · exact hsame x (List.mem_append_right _ hx)
  · rw [isSome_get?_modify, shape.live, hperm.mem_iff]
  · cases outer <;> simp [Frame.grow]
  · simp [Frame.blamed, Frame.grow, Branch.blamedAll_append, blamedAll, Option.or_assoc]

theorem stores_close (shape : Shape trace [frame] kept spare)
    (outcome : Except EvalError (Option Value)) :
    (trace.pool.modify frame.id (Call.ended outcome)).Stores
      (frame.close none outcome :: (spare ++ kept.toList)) := by
  have hnodup : (idsAll (frame.close none outcome :: (spare ++ kept.toList))).Nodup := by
    simpa [idsAll, Frame.ids, Frame.ids_close] using shape.nodup
  refine ⟨shape.sound.modify _ (Call.live_ended outcome),
    ⟨shape.holds_close outcome, shape.holdsKept.congr fun x hx => ?_⟩, hnodup, fun x => ?_⟩
  · have hne : x ≠ frame.id := fun h =>
      (List.nodup_append.1 hnodup).2.2 _ List.mem_cons_self _ (h ▸ hx) rfl
    rw [Pool.get?_modify _ _ _ (Call.live_ended outcome), if_neg hne]
  · rw [isSome_get?_modify, shape.live]
    simp [idsAll, Frame.ids, Frame.ids_close]

theorem retain {branch : Branch} (stores : trace.pool.Stores (branch :: (spare ++ kept.toList)))
    (current : trace.current = none) (root : trace.root = none)
    (last : trace.last = kept.map Branch.id) (pending : trace.pending = none) :
    Shape (trace.retain branch.id branch.culprit) [] (some branch) spare := by
  cases kept with
  | none =>
    have hretain : trace.retain branch.id branch.culprit =
        { trace with last := some branch.id, failed := branch.culprit } := by
      rw [Trace.retain, last]
      rfl
    have hperm : (branch :: (spare ++ [])).Perm (spare ++ [branch]) := by
      rw [List.append_nil]
      exact (List.perm_append_singleton branch spare).symm
    rw [hretain]
    exact of_stores (stores.perm hperm) current root rfl rfl pending
  | some old =>
    -- The branch before is another one, so it is recycled.
    have hmem : old.id ∈ idsAll (spare ++ [old]) :=
      Branch.mem_idsAll_iff.2 ⟨old, by simp, old.id_mem_ids⟩
    have hne : old.id ≠ branch.id := fun h =>
      (List.nodup_append.1 stores.nodup).2.2 _ branch.id_mem_ids _ (h ▸ hmem) rfl
    have hretain : trace.retain branch.id branch.culprit =
        { trace.recycle old.id with last := some branch.id, failed := branch.culprit } := by
      rw [Trace.retain, last, Option.map_some, Option.filter_some, if_pos (by simpa using hne)]
      rfl
    have hperm : (branch :: (spare ++ [old])).Perm (old :: (spare ++ [branch])) := by
      refine ((List.perm_append_singleton old spare).cons branch).trans ?_
      refine (List.Perm.swap old branch spare).trans ?_
      exact (List.perm_append_singleton branch spare).symm.cons old
    rw [hretain]
    exact of_stores (stores.perm hperm).recycle current root rfl rfl pending

/-- An outermost call that ends leaves its branch if it failed or is to be kept, and otherwise what
was retained before. -/
theorem complete_outermost (shape : Shape trace [frame] kept spare)
    (outcome : Except EvalError (Option Value)) (keep : Bool) {branch : Branch}
    (hbranch : frame.close none outcome = branch) :
    Shape (trace.complete frame.id outcome keep) []
      (if branch.failed || keep then some branch else kept) spare := by
  have hstores := shape.stores_close outcome
  rw [hbranch] at hstores
  have hid : frame.id = branch.id := hbranch ▸ rfl
  rw [shape.complete_eq outcome keep hbranch rfl, if_neg (by simp), Trace.settle, hid]
  rw [hid] at hstores
  have hretain : Shape (({ trace with
      pool := trace.pool.modify branch.id (Call.ended outcome)
      current := none, root := none, pending := none } : Trace).retain branch.id branch.culprit)
      [] (some branch) spare := retain hstores rfl rfl shape.last rfl
  cases hfailed : branch.failed with
  | true =>
    rw [Branch.culprit, if_pos hfailed] at hretain
    simpa [Frame.blamed] using hretain
  | false =>
    rw [Branch.culprit, if_neg (by simp [hfailed])] at hretain
    cases keep with
    | true => exact hretain
    | false => exact of_stores hstores.recycle rfl rfl shape.last shape.failed rfl

end Shape

def Frame.remaining (frame : Frame) (outcome : Except EvalError (Option Value)) :
    List Frame → List Frame
  | [] => []
  | around :: outer => around.grow [frame.close (some around.id) outcome] :: outer

def Frame.retained (frame : Frame) (outcome : Except EvalError (Option Value)) (keep : Bool)
    (kept : Option Branch) : List Frame → Option Branch
  | [] =>
    if (frame.close none outcome).failed || keep then some (frame.close none outcome) else kept
  | _ :: _ => kept

theorem Frame.map_id_remaining (frame : Frame) (outcome : Except EvalError (Option Value))
    (outer : List Frame) : (frame.remaining outcome outer).map Frame.id = outer.map Frame.id := by
  cases outer <;> rfl

namespace Shape
variable {trace : Trace} {frame : Frame} {outer : List Frame} {kept : Option Branch}
  {spare : List Branch}

theorem complete (shape : Shape trace (frame :: outer) kept spare)
    (outcome : Except EvalError (Option Value)) (keep : Bool) :
    Shape (trace.complete frame.id outcome keep) (frame.remaining outcome outer)
      (frame.retained outcome keep kept outer) spare := by
  cases outer with
  | nil => exact shape.complete_outermost outcome keep rfl
  | cons around outer => exact shape.complete_nested outcome keep

/-! ### Giving back what is retained -/

theorem clearLast {frames : List Frame} (shape : Shape trace frames kept spare) :
    Shape trace.clearLast frames none spare := by
  have hlast := shape.last
  cases kept with
  | none =>
    have hclear : trace.clearLast = { trace with last := none, failed := none } := by
      rw [Trace.clearLast, hlast]
      rfl
    rw [hclear]
    exact ⟨shape.sound, shape.holds, shape.holdsKept, shape.nodup, shape.live, shape.current,
      shape.root, rfl, rfl, shape.pending⟩
  | some old =>
    have hclear : trace.clearLast = { trace.recycle old.id with last := none, failed := none } := by
      rw [Trace.clearLast, hlast]
      rfl
    obtain ⟨hspare, hold, _⟩ := Pool.holdsAll_append.1 shape.holdsKept
    -- The retained branch is apart from all other records, and recycling it changes only its own.
    have hids : Frame.ids frames ++ idsAll (spare ++ (some old).toList) =
        Frame.ids frames ++ idsAll (spare ++ (none : Option Branch).toList) ++ old.ids := by
      simp [Branch.idsAll_append, idsAll]
    have hnodup := shape.nodup
    rw [hids] at hnodup
    obtain ⟨hrest, hbranch, hdisjoint⟩ := List.nodup_append.1 hnodup
    obtain ⟨hsound, hget, _⟩ := Pool.recycleAll_branch shape.sound hold hbranch
    have hsame : ∀ x ∈ Frame.ids frames ++ idsAll (spare ++ (none : Option Branch).toList),
        (trace.pool.recycleAll old.id).1.get? x = trace.pool.get? x := by
      intro x hx
      rw [hget, if_neg fun hx' => hdisjoint x hx x hx' rfl]
    rw [hclear]
    refine ⟨hsound, shape.holds.congr fun x hx => hsame x (List.mem_append_left _ hx), ?_, hrest,
      fun x => ?_, shape.current, shape.root, rfl, rfl, shape.pending⟩
    · refine Pool.holdsAll_append.2 ⟨hspare.congr fun x hx => hsame x ?_, trivial⟩
      rw [Branch.idsAll_append]
      exact List.mem_append_right _ (List.mem_append_left _ hx)
    · show ((trace.pool.recycleAll old.id).1.get? x).isSome ↔ _
      have hlive := shape.live x
      rw [hids, List.mem_append] at hlive
      rw [hget]
      split
      next hx => exact iff_of_false (by simp) fun hx' => hdisjoint x hx' x hx rfl
      next hx => exact hlive.trans (or_iff_left hx)

end Shape

/-! ### Giving back what is in progress -/

/-- Frames, the innermost of them around `inner`, as the branches they would be if all ended. -/
def Frame.stack (inner : List Branch) : List Frame → List Branch
  | [] => inner
  | frame :: outer =>
    stack [⟨frame.id, frame.call (outer.head?.map Frame.id) (inner.map Branch.id),
      frame.done ++ inner⟩] outer

theorem Frame.ids_stack (inner : List Branch) (frames : List Frame) :
    (idsAll (stack inner frames)).Perm (idsAll inner ++ Frame.ids frames) := by
  induction frames generalizing inner with
  | nil => rw [stack, Frame.ids, List.append_nil]
  | cons frame outer ih =>
    refine (ih _).trans ?_
    rw [Branch.idsAll_singleton, Branch.ids, Branch.idsAll_append, Frame.ids, List.cons_append]
    refine .trans (.cons _ ?_) List.perm_middle.symm
    rw [List.append_assoc]
    exact List.perm_append_comm_assoc _ _ _

theorem Frame.stack_singleton (branch : Branch) (frames : List Frame) :
    ∃ top, stack [branch] frames = [top] ∧
      (branch.id :: frames.map Frame.id).getLast? = some top.id := by
  induction frames generalizing branch with
  | nil => exact ⟨branch, rfl, rfl⟩
  | cons frame outer ih =>
    obtain ⟨top, htop, hid⟩ := ih ⟨frame.id, frame.call (outer.head?.map Frame.id) [branch.id],
      frame.done ++ [branch]⟩
    refine ⟨top, htop, ?_⟩
    rw [List.map_cons, List.getLast?_cons_cons]
    exact hid

theorem Pool.HoldsFrames.stack {pool : Pool} {inner : List Branch} {frames : List Frame}
    (holds : pool.HoldsFrames (inner.map Branch.id) frames)
    (hinner : pool.HoldsAll (frames.head?.map Frame.id) inner) :
    pool.HoldsAll none (Frame.stack inner frames) := by
  induction frames generalizing inner with
  | nil => exact hinner
  | cons frame outer ih =>
    obtain ⟨hid, hdone, houter⟩ := holds
    refine ih houter ⟨⟨hid, rfl, ?_, holdsAll_append.2 ⟨hdone, hinner⟩⟩, trivial⟩
    rw [List.map_append]
    rfl

namespace Shape
variable {trace : Trace} {frames : List Frame} {kept : Option Branch} {spare : List Branch}

/-- Whatever is in progress or retained, after a reset there is nothing but what was not in use. -/
theorem reset (shape : Shape trace frames kept spare) : Shape trace.reset [] none spare := by
  have hcleared := shape.clearLast
  have hroot := hcleared.root
  cases frames with
  | nil =>
    have hreset : trace.reset =
        { trace.clearLast with root := none, current := none, pending := none } := by
      rw [Trace.reset, hroot]
      rfl
    rw [hreset]
    exact of_stores hcleared.stores rfl rfl hcleared.last hcleared.failed rfl
  | cons frame outer =>
    -- All that is in progress hangs below the outermost record, which is the root.
    obtain ⟨top, htop, hid⟩ := Frame.stack_singleton ⟨frame.id,
      frame.call (outer.head?.map Frame.id) [], frame.done ++ []⟩ outer
    have hstack : Frame.stack [] (frame :: outer) = [top] := htop
    have hholds : trace.clearLast.pool.HoldsAll none (Frame.stack [] (frame :: outer)) :=
      Pool.HoldsFrames.stack hcleared.holds trivial
    have hperm := Frame.ids_stack [] (frame :: outer)
    rw [hstack] at hholds hperm
    have hstores : trace.clearLast.pool.Stores
        (top :: (spare ++ (none : Option Branch).toList)) := by
      have hall : (idsAll (top :: (spare ++ (none : Option Branch).toList))).Perm
          (Frame.ids (frame :: outer) ++ idsAll (spare ++ (none : Option Branch).toList)) := by
        refine .append_right _ ?_
        simpa [idsAll] using hperm
      exact ⟨hcleared.sound, ⟨hholds.1, hcleared.holdsKept⟩, hall.nodup_iff.2 hcleared.nodup,
        fun x => (hcleared.live x).trans hall.mem_iff.symm⟩
    have hreset : trace.reset = { trace.clearLast.recycle top.id with
        root := none, current := none, pending := none } := by
      have hlast : trace.clearLast.root = some top.id := by
        rw [hroot, ← List.getLast?_map]
        exact hid
      rw [Trace.reset, hlast]
      rfl
    rw [hreset]
    exact of_stores hstores.recycle rfl rfl hcleared.last hcleared.failed rfl

end Shape
end ObjectNavigation
