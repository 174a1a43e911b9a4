import Mathlib.Logic.Equiv.Fintype
import ObjectNavigation.Proofs.Trace.Completion
import ObjectNavigation.Proofs.Trace.Discipline

/-!
Traces that differ in no more than the names of their records. The pools of two contexts hand out
different records when their histories differ, so traces are compared by the frames and branches
they consist of, without names (`Trace.Twin`). Beginning and ending a call, giving the retained
record back and a reset keep traces twins, and of twins one is the other under a permutation of
names (`Trace.Twin.renamed`).
-/

namespace ObjectNavigation

theorem CallId.exists_perm_map_eq {names names' : List CallId} (nodup : names.Nodup)
    (nodup' : names'.Nodup) (length : names.length = names'.length) :
    ∃ π : Equiv.Perm CallId, names.map π = names' := by
  obtain ⟨π, hπ⟩ := Equiv.Perm.exists_extending_pair names.get
    (names'.get ∘ Fin.cast length) (List.nodup_iff_injective_get.1 nodup)
    ((List.nodup_iff_injective_get.1 nodup').comp (Fin.cast_injective length))
  refine ⟨π, List.ext_get (by simpa using length) fun index h h' => ?_⟩
  rw [List.length_map] at h
  simpa using hπ ⟨index, h⟩

/-! ### Branches and frames without names -/

def Call.renamed (π : Equiv.Perm CallId) (call : Call) : Call :=
  { call with parent := call.parent.map π, children := call.children.map π }

def Call.unlinked (call : Call) : Call :=
  { call with parent := none, children := [] }

namespace Branch

mutual

def unnamed : Branch → Branch
  | ⟨_, call, inner⟩ => ⟨0, call.unlinked, unnamedAll inner⟩

def unnamedAll : List Branch → List Branch
  | [] => []
  | branch :: rest => branch.unnamed :: unnamedAll rest

end

theorem unnamedAll_append (left right : List Branch) :
    unnamedAll (left ++ right) = unnamedAll left ++ unnamedAll right := by
  induction left with
  | nil => rfl
  | cons branch rest ih => rw [List.cons_append, unnamedAll, ih, unnamedAll, List.cons_append]

theorem unnamedAll_toList {kept kept' : Option Branch}
    (h : kept.map unnamed = kept'.map unnamed) :
    unnamedAll kept.toList = unnamedAll kept'.toList := by
  match kept, kept' with
  | none, none => rfl
  | some branch, some branch' => exact congrArg ([·]) (Option.some.inj h)

theorem failed_unnamed (branch : Branch) : branch.unnamed.failed = branch.failed := by
  cases branch
  rfl

mutual

theorem length_ids_unnamed (branch : Branch) : branch.unnamed.ids.length = branch.ids.length := by
  match branch with
  | ⟨id, call, inner⟩ =>
    rw [unnamed, ids, ids, List.length_cons, List.length_cons, length_idsAll_unnamed]

theorem length_idsAll_unnamed (branches : List Branch) :
    (idsAll (unnamedAll branches)).length = (idsAll branches).length := by
  match branches with
  | [] => rfl
  | branch :: rest =>
    rw [unnamedAll, idsAll, idsAll, List.length_append, List.length_append, length_ids_unnamed,
      length_idsAll_unnamed]

end

mutual

/-- The second branch is the first with other names. -/
def Renames (π : Equiv.Perm CallId) : Branch → Branch → Prop
  | ⟨id, call, inner⟩, ⟨id', call', inner'⟩ =>
    π id = id' ∧ call.unlinked = call'.unlinked ∧ RenamesAll π inner inner'

def RenamesAll (π : Equiv.Perm CallId) : List Branch → List Branch → Prop
  | [], [] => True
  | branch :: rest, branch' :: rest' => Renames π branch branch' ∧ RenamesAll π rest rest'
  | _, _ => False

end

section Renames
variable {π : Equiv.Perm CallId}

mutual

theorem Renames.of_unnamed {branch branch' : Branch} (h : branch.unnamed = branch'.unnamed)
    (names : branch.ids.map π = branch'.ids) : Renames π branch branch' := by
  match branch, branch' with
  | ⟨id, call, inner⟩, ⟨id', call', inner'⟩ =>
    rw [unnamed, unnamed, Branch.mk.injEq] at h
    rw [ids, ids, List.map_cons, List.cons.injEq] at names
    exact ⟨names.1, h.2.1, RenamesAll.of_unnamed h.2.2 names.2⟩

theorem RenamesAll.of_unnamed {branches branches' : List Branch}
    (h : unnamedAll branches = unnamedAll branches')
    (names : (idsAll branches).map π = idsAll branches') : RenamesAll π branches branches' := by
  match branches, branches' with
  | [], [] => exact trivial
  | branch :: rest, branch' :: rest' =>
    rw [unnamedAll, unnamedAll, List.cons.injEq] at h
    rw [idsAll, idsAll, List.map_append] at names
    have hlength : (branch.ids.map π).length = branch'.ids.length := by
      rw [List.length_map, ← length_ids_unnamed branch, h.1, length_ids_unnamed]
    obtain ⟨hfirst, hrest⟩ := List.append_inj names hlength
    exact ⟨Renames.of_unnamed h.1 hfirst, RenamesAll.of_unnamed h.2 hrest⟩

end

theorem Renames.id {branch branch' : Branch} (h : Renames π branch branch') :
    π branch.id = branch'.id := by
  cases branch
  cases branch'
  exact h.1

theorem RenamesAll.ids {branches branches' : List Branch} (h : RenamesAll π branches branches') :
    (branches.map Branch.id).map π = branches'.map Branch.id := by
  match branches, branches' with
  | [], [] => rfl
  | branch :: rest, branch' :: rest' =>
    rw [List.map_cons, List.map_cons, List.map_cons, h.1.id, RenamesAll.ids h.2]

mutual

theorem Renames.blamed {branch branch' : Branch} (h : Renames π branch branch') :
    branch.blamed.map π = branch'.blamed := by
  match branch, branch' with
  | ⟨id, call, inner⟩, ⟨id', call', inner'⟩ =>
    obtain ⟨hid, hcall, hinner⟩ := h
    have hfailure : call.failure = call'.failure := (congrArg Call.failure hcall :)
    rw [Branch.blamed, Branch.blamed, Option.map_or, hinner.blamed, hfailure]
    split
    next => rw [Option.map_some, hid]
    next => rfl

theorem RenamesAll.blamed {branches branches' : List Branch}
    (h : RenamesAll π branches branches') :
    (blamedAll branches).map π = blamedAll branches' := by
  match branches, branches' with
  | [], [] => rfl
  | branch :: rest, branch' :: rest' =>
    rw [blamedAll, blamedAll, Option.map_or, h.1.blamed, RenamesAll.blamed h.2]

end

theorem Renames.culprit {branch branch' : Branch} (h : Renames π branch branch') :
    branch.culprit.map π = branch'.culprit := by
  have hfailed : branch.failed = branch'.failed := by
    cases branch
    cases branch'
    exact (congrArg (fun call : Call => call.failure.isSome) h.2.1 :)
  rw [Branch.culprit, Branch.culprit, hfailed]
  split
  next => exact h.blamed
  next => rfl

theorem RenamesAll.kept {kept kept' : Option Branch}
    (h : RenamesAll π kept.toList kept'.toList) :
    (kept.map Branch.id).map π = kept'.map Branch.id ∧
      (kept.bind Branch.culprit).map π = kept'.bind Branch.culprit := by
  match kept, kept' with
  | none, none => exact ⟨rfl, rfl⟩
  | some branch, some branch' => exact ⟨congrArg some h.1.id, h.1.culprit⟩

end Renames
end Branch

namespace Frame
open Branch (idsAll unnamedAll)

def unnamed (frame : Frame) : Frame :=
  { frame with id := 0, done := unnamedAll frame.done }

theorem unnamed_close {frame frame' : Frame} (h : frame.unnamed = frame'.unnamed)
    (parent parent' : Option CallId) (outcome : Except EvalError (Option Value)) :
    (frame.close parent outcome).unnamed = (frame'.close parent' outcome).unnamed := by
  simp only [unnamed, Frame.mk.injEq, true_and] at h
  obtain ⟨hnode, hkind, hobject, hsetter, hdone⟩ := h
  have hcall : ((frame.call parent []).ended outcome).unlinked =
      ((frame'.call parent' []).ended outcome).unlinked := by
    simp only [call, hnode, hkind, hobject, hsetter]
    rcases outcome with error | result | value <;> rfl
  rw [close, close, Branch.unnamed, Branch.unnamed, hcall, hdone]

theorem failed_close_eq {frame frame' : Frame} (h : frame.unnamed = frame'.unnamed)
    (outcome : Except EvalError (Option Value)) :
    (frame.close none outcome).failed = (frame'.close none outcome).failed := by
  rw [← Branch.failed_unnamed, unnamed_close h none none, Branch.failed_unnamed]

theorem unnamed_grow {frame frame' : Frame} (h : frame.unnamed = frame'.unnamed)
    {branches branches' : List Branch} (hbranches : unnamedAll branches = unnamedAll branches') :
    (frame.grow branches).unnamed = (frame'.grow branches').unnamed := by
  simp only [unnamed, grow, Frame.mk.injEq, true_and, Branch.unnamedAll_append] at h ⊢
  obtain ⟨hnode, hkind, hobject, hsetter, hdone⟩ := h
  exact ⟨hnode, hkind, hobject, hsetter, by rw [hdone, hbranches]⟩

theorem length_ids {frames frames' : List Frame}
    (h : frames.map unnamed = frames'.map unnamed) :
    (ids frames).length = (ids frames').length := by
  match frames, frames' with
  | [], [] => rfl
  | frame :: outer, frame' :: outer' =>
    rw [List.map_cons, List.map_cons, List.cons.injEq] at h
    have hdone : unnamedAll frame.done = unnamedAll frame'.done := (congrArg Frame.done h.1 :)
    rw [ids, ids, List.length_cons, List.length_cons, List.length_append, List.length_append,
      ← Branch.length_idsAll_unnamed, hdone, Branch.length_idsAll_unnamed, length_ids h.2]

section Ending
variable {frame frame' : Frame} {outer outer' : List Frame} {kept kept' : Option Branch}

theorem unnamed_remaining (h : frame.unnamed = frame'.unnamed)
    (houter : outer.map unnamed = outer'.map unnamed)
    (outcome : Except EvalError (Option Value)) :
    (frame.remaining outcome outer).map unnamed =
      (frame'.remaining outcome outer').map unnamed := by
  match outer, outer' with
  | [], [] => rfl
  | around :: outer, around' :: outer' =>
    rw [List.map_cons, List.map_cons, List.cons.injEq] at houter
    have hbranch : unnamedAll [frame.close (some around.id) outcome] =
        unnamedAll [frame'.close (some around'.id) outcome] :=
      congrArg ([·]) (unnamed_close h _ _ outcome)
    rw [remaining, remaining, List.map_cons, List.map_cons, unnamed_grow houter.1 hbranch,
      houter.2]

theorem unnamed_retained (h : frame.unnamed = frame'.unnamed)
    (houter : outer.map unnamed = outer'.map unnamed)
    (hkept : kept.map Branch.unnamed = kept'.map Branch.unnamed)
    (outcome : Except EvalError (Option Value)) (keep : Bool) :
    (frame.retained outcome keep kept outer).map Branch.unnamed =
      (frame'.retained outcome keep kept' outer').map Branch.unnamed := by
  match outer, outer' with
  | [], [] =>
    rw [retained, retained, failed_close_eq h]
    split
    next => exact congrArg some (unnamed_close h none none outcome)
    next => exact hkept
  | _ :: _, _ :: _ => exact hkept

end Ending

/-- The second frames are the first with other names. -/
def Renames (π : Equiv.Perm CallId) : List Frame → List Frame → Prop
  | [], [] => True
  | frame :: outer, frame' :: outer' =>
    π frame.id = frame'.id ∧ frame.unnamed = frame'.unnamed ∧
      Branch.RenamesAll π frame.done frame'.done ∧ Renames π outer outer'
  | _, _ => False

section Renames
variable {π : Equiv.Perm CallId}

theorem Renames.of_unnamed {frames frames' : List Frame}
    (h : frames.map unnamed = frames'.map unnamed)
    (names : (ids frames).map π = ids frames') : Renames π frames frames' := by
  match frames, frames' with
  | [], [] => exact trivial
  | frame :: outer, frame' :: outer' =>
    rw [List.map_cons, List.map_cons, List.cons.injEq] at h
    rw [ids, ids, List.map_cons, List.cons.injEq, List.map_append] at names
    have hdone : unnamedAll frame.done = unnamedAll frame'.done := (congrArg Frame.done h.1 :)
    have hlength : ((idsAll frame.done).map π).length = (idsAll frame'.done).length := by
      rw [List.length_map, ← Branch.length_idsAll_unnamed, hdone, Branch.length_idsAll_unnamed]
    obtain ⟨hids, houter⟩ := List.append_inj names.2 hlength
    exact ⟨names.1, h.1, .of_unnamed hdone hids, Renames.of_unnamed h.2 houter⟩

theorem Renames.ids {frames frames' : List Frame} (h : Renames π frames frames') :
    (frames.map Frame.id).map π = frames'.map Frame.id := by
  match frames, frames' with
  | [], [] => rfl
  | frame :: outer, frame' :: outer' =>
    rw [List.map_cons, List.map_cons, List.map_cons, h.1, Renames.ids h.2.2.2]

end Renames
end Frame

/-! ### What pools hold, renamed -/

section Pools
variable {π : Equiv.Perm CallId} {pool pool' : Pool}

theorem Call.eq_renamed {call call' : Call} (h : call.unlinked = call'.unlinked)
    (parent : call.parent.map π = call'.parent) (children : call.children.map π = call'.children) :
    call' = call.renamed π := by
  cases call
  cases call'
  simp only [unlinked, renamed, Call.mk.injEq] at h parent children ⊢
  obtain ⟨hnode, hkind, hsource, hsetter, hresult, hfailure, _, _, hlive⟩ := h
  exact ⟨hnode.symm, hkind.symm, hsource.symm, hsetter.symm, hresult.symm, hfailure.symm,
    parent.symm, children.symm, hlive.symm⟩

open Branch (ids idsAll Renames RenamesAll)

mutual

theorem Pool.Holds.renamed {parent : Option CallId} {branch branch' : Branch}
    (holds : pool.Holds parent branch) (holds' : pool'.Holds (parent.map π) branch')
    (names : Renames π branch branch') {x : CallId} (hx : x ∈ branch.ids) :
    pool'.get? (π x) = (pool.get? x).map (Call.renamed π) := by
  match branch, branch' with
  | ⟨id, call, inner⟩, ⟨id', call', inner'⟩ =>
    obtain ⟨hid, hparent, hchildren, hinner⟩ := holds
    obtain ⟨hid', hparent', hchildren', hinner'⟩ := holds'
    obtain ⟨rfl, hcall, hnames⟩ := names
    rcases List.mem_cons.1 hx with rfl | hx
    · rw [hid', hid, Option.map_some, Call.eq_renamed hcall]
      · rw [hparent, hparent']
      · rw [hchildren, hchildren', hnames.ids]
    · exact hinner.renamed hinner' hnames hx

theorem Pool.HoldsAll.renamed {parent : Option CallId} {branches branches' : List Branch}
    (holds : pool.HoldsAll parent branches) (holds' : pool'.HoldsAll (parent.map π) branches')
    (names : RenamesAll π branches branches') {x : CallId} (hx : x ∈ idsAll branches) :
    pool'.get? (π x) = (pool.get? x).map (Call.renamed π) := by
  match branches, branches' with
  | branch :: rest, branch' :: rest' =>
    rcases List.mem_append.1 hx with hx | hx
    · exact holds.1.renamed holds'.1 names.1 hx
    · exact Pool.HoldsAll.renamed holds.2 holds'.2 names.2 hx

end

theorem Pool.HoldsFrames.renamed {opened : List CallId} {frames frames' : List Frame}
    (holds : pool.HoldsFrames opened frames) (holds' : pool'.HoldsFrames (opened.map π) frames')
    (names : Frame.Renames π frames frames') {x : CallId} (hx : x ∈ Frame.ids frames) :
    pool'.get? (π x) = (pool.get? x).map (Call.renamed π) := by
  match frames, frames' with
  | frame :: outer, frame' :: outer' =>
    obtain ⟨hid, hdone, houter⟩ := holds
    obtain ⟨hid', hdone', houter'⟩ := holds'
    obtain ⟨hname, hunnamed, hnames, hrest⟩ := names
    rcases List.mem_cons.1 hx with rfl | hx
    · simp only [Frame.unnamed, Frame.mk.injEq, true_and] at hunnamed
      obtain ⟨hnode, hkind, hobject, hsetter, _⟩ := hunnamed
      rw [hname, hid', hid, Option.map_some]
      refine congrArg some (Call.eq_renamed ?_ ?_ ?_)
      · simp only [Frame.call, Call.unlinked, hnode, hkind, hobject, hsetter]
      · show (outer.head?.map Frame.id).map π = outer'.head?.map Frame.id
        rw [← List.head?_map, ← List.head?_map, ← List.head?_map, hrest.ids]
      · rw [Frame.call, Frame.call, List.map_append, hnames.ids]
    · rcases List.mem_append.1 hx with hx | hx
      · rw [← hname] at hdone'
        exact hdone.renamed hdone' hnames hx
      · rw [← hname] at houter'
        exact Pool.HoldsFrames.renamed houter houter' hrest hx

/-- Live or not, a record is there under its other name. -/
theorem Shape.get?_renamed {trace trace' : Trace} {frames frames' : List Frame}
    {kept kept' : Option Branch} (shape : Shape trace frames kept)
    (shape' : Shape trace' frames' kept') (renames : Frame.Renames π frames frames')
    (renamesKept : RenamesAll π kept.toList kept'.toList)
    (names : (Frame.ids frames ++ idsAll kept.toList).map π =
      Frame.ids frames' ++ idsAll kept'.toList) (x : CallId) :
    trace'.pool.get? (π x) = (trace.pool.get? x).map (Call.renamed π) := by
  by_cases hx : x ∈ Frame.ids frames ++ idsAll kept.toList
  · rcases List.mem_append.1 hx with hx | hx
    · exact shape.holds.renamed shape'.holds renames hx
    · exact shape.holdsKept.renamed shape'.holdsKept renamesKept hx
  · have hx' : π x ∉ Frame.ids frames' ++ idsAll kept'.toList := by
      rw [← names, List.mem_map_of_injective π.injective]
      exact hx
    have hdead : trace.pool.get? x = none :=
      Option.not_isSome_iff_eq_none.1 fun h => hx ((shape.live x).1 h)
    have hdead' : trace'.pool.get? (π x) = none :=
      Option.not_isSome_iff_eq_none.1 fun h => hx' ((shape'.live (π x)).1 h)
    rw [hdead, hdead']
    rfl

end Pools

/-! ### Traces -/

theorem Pool.HoldsFrames.leads {pool : Pool} {opened : List CallId} {frames : List Frame}
    (holds : pool.HoldsFrames opened frames) :
    pool.Leads (frames.head?.map Frame.id) (frames.map Frame.id) := by
  induction frames generalizing opened with
  | nil => exact .nil
  | cons frame outer ih =>
    obtain ⟨hid, _, houter⟩ := holds
    refine .cons ?_
    rw [hid]
    exact ih houter

theorem Frame.map_id_sublist (frames : List Frame) :
    (frames.map Frame.id).Sublist (Frame.ids frames) := by
  induction frames with
  | nil => exact .slnil
  | cons frame outer ih =>
    exact .cons_cons _ (ih.trans (List.sublist_append_right _ _))

theorem Shape.stands {trace : Trace} {frames : List Frame} {kept : Option Branch}
    {spare : List Branch} (shape : Shape trace frames kept spare) :
    trace.Stands (frames.map Frame.id) where
  sound := shape.sound
  live id hid :=
    (shape.live id).2 (List.mem_append_left _ ((Frame.map_id_sublist frames).subset hid))
  nodup := shape.nodup_frames.sublist (Frame.map_id_sublist frames)
  leads := by
    rw [shape.current]
    exact shape.holds.leads
  root := by rw [shape.root, List.getLast?_map]

namespace Trace
open Branch (idsAll)

/-- The second trace is the first with other names. -/
structure Renamed (π : Equiv.Perm CallId) (trace trace' : Trace) : Prop where
  depth : trace'.depth = trace.depth
  current : trace'.current = trace.current.map π
  root : trace'.root = trace.root.map π
  last : trace'.last = trace.last.map π
  failed : trace'.failed = trace.failed.map π
  record : ∀ id, trace'.pool.get? (π id) = (trace.pool.get? id).map (Call.renamed π)

/-- Without names, the traces consist of the same frames and branches. The records in progress are
those of the two stacks, innermost first. -/
inductive Twin (trace trace' : Trace) (stack stack' : List CallId) : Prop where
  | intro {frames frames' : List Frame} {kept kept' : Option Branch}
      (shape : Shape trace frames kept) (shape' : Shape trace' frames' kept')
      (sameFrames : frames.map Frame.unnamed = frames'.map Frame.unnamed)
      (sameKept : kept.map Branch.unnamed = kept'.map Branch.unnamed)
      (names : frames.map Frame.id = stack) (names' : frames'.map Frame.id = stack')

namespace Twin
variable {trace trace' : Trace} {stack stack' : List CallId}

theorem blank (shape : Shape trace [] none) (shape' : Shape trace' [] none) :
    Twin trace trace' [] [] :=
  .intro shape shape' rfl rfl rfl rfl

theorem stands (twin : Twin trace trace' stack stack') :
    trace.Stands stack ∧ trace'.Stands stack' := by
  obtain ⟨shape, shape', _, _, rfl, rfl⟩ := twin
  exact ⟨shape.stands, shape'.stands⟩

theorem length_eq (twin : Twin trace trace' stack stack') : stack.length = stack'.length := by
  obtain ⟨_, _, hframes, _, rfl, rfl⟩ := twin
  simpa using congrArg List.length hframes

/-- The records in progress on the one side are those on the other with other names. -/
theorem exists_perm (twin : Twin trace trace' stack stack') :
    ∃ π : Equiv.Perm CallId, stack.map π = stack' :=
  CallId.exists_perm_map_eq twin.stands.1.nodup twin.stands.2.nodup twin.length_eq

theorem begin (twin : Twin trace trace' stack stack') {node : NodeId} {kind : Kind}
    {object : Value} {setter : Bool} {id id' : CallId} {pool pool' : Pool}
    (creates : Pool.Creates trace.pool node kind object setter id pool)
    (creates' : Pool.Creates trace'.pool node kind object setter id' pool') :
    Twin (({ trace with pool } : Trace).push id) (({ trace' with pool := pool' } : Trace).push id')
      (id :: stack) (id' :: stack') := by
  obtain ⟨shape, shape', hframes, hkept, rfl, rfl⟩ := twin
  refine .intro (shape.begin creates) (shape'.begin creates') ?_ hkept rfl rfl
  rw [List.map_cons, List.map_cons, hframes]
  rfl

theorem complete {id id' : CallId} (twin : Twin trace trace' (id :: stack) (id' :: stack'))
    (outcome : Except EvalError (Option Value)) (keep : Bool) :
    Twin (trace.complete id outcome keep) (trace'.complete id' outcome keep) stack stack' := by
  obtain @⟨frames, frames', kept, kept', shape, shape', hframes, hkept, hnames, hnames'⟩ := twin
  obtain ⟨frame, outer, rfl, rfl, rfl⟩ := List.map_eq_cons_iff.1 hnames
  obtain ⟨frame', outer', rfl, rfl, rfl⟩ := List.map_eq_cons_iff.1 hnames'
  rw [List.map_cons, List.map_cons, List.cons.injEq] at hframes
  obtain ⟨hframe, houter⟩ := hframes
  exact .intro (shape.complete outcome keep) (shape'.complete outcome keep)
    (Frame.unnamed_remaining hframe houter outcome)
    (Frame.unnamed_retained hframe houter hkept outcome keep)
    (frame.map_id_remaining outcome outer) (frame'.map_id_remaining outcome outer')

theorem clearLast (twin : Twin trace trace' stack stack') :
    Twin trace.clearLast trace'.clearLast stack stack' := by
  obtain ⟨shape, shape', hframes, _, names, names'⟩ := twin
  exact .intro shape.clearLast shape'.clearLast hframes rfl names names'

theorem reset (twin : Twin trace trace' stack stack') : Twin trace.reset trace'.reset [] [] := by
  obtain ⟨shape, shape', _, _, _, _⟩ := twin
  exact .blank shape.reset shape'.reset

theorem renamed (twin : Twin trace trace' stack stack') :
    ∃ π : Equiv.Perm CallId, Renamed π trace trace' := by
  obtain ⟨hstands, hstands'⟩ := twin.stands
  have hlength := twin.length_eq
  obtain @⟨frames, frames', kept, kept', shape, shape', hframes, hkept, rfl, rfl⟩ := twin
  have hids : (Frame.ids frames).length = (Frame.ids frames').length := Frame.length_ids hframes
  have hall : Branch.unnamedAll kept.toList = Branch.unnamedAll kept'.toList :=
    Branch.unnamedAll_toList hkept
  obtain ⟨π, hπ⟩ := CallId.exists_perm_map_eq shape.nodup shape'.nodup <| by
    rw [List.length_append, List.length_append, hids, List.nil_append, List.nil_append,
      ← Branch.length_idsAll_unnamed, hall, Branch.length_idsAll_unnamed]
  have hsplit := hπ
  rw [List.map_append] at hsplit
  obtain ⟨hnames, hnamesKept⟩ := List.append_inj hsplit (by rw [List.length_map, hids])
  have renames := Frame.Renames.of_unnamed hframes hnames
  have renamesKept := Branch.RenamesAll.of_unnamed hall hnamesKept
  refine ⟨π, ?_, ?_, ?_, ?_, ?_, shape.get?_renamed shape' renames renamesKept hπ⟩
  · rw [hstands.shows.depth, hstands'.shows.depth, hlength]
  · rw [hstands.shows.current, hstands'.shows.current, ← renames.ids, List.head?_map]
  · rw [hstands.shows.root, hstands'.shows.root, ← renames.ids, List.getLast?_map]
  · rw [shape.last, shape'.last]
    exact renamesKept.kept.1.symm
  · rw [shape.failed, shape'.failed]
    exact renamesKept.kept.2.symm

end Twin
end Trace
end ObjectNavigation
