import ObjectNavigation.Proofs.Engine.Blame

/-!
Records and calls. The records below a retained one stand for the recorded calls made during the
call it stands for: each call has a record of its own, which tells what the call was about and how
it ended, and the records of the calls made directly during it are its children, in order
(`Activation.Mirrors`). Nothing else is below it, and nothing is left in it of an earlier use.

A get that succeeds ends with a value and a set without one, so a record has a result exactly if it
is that of a get that succeeded.
-/

namespace ObjectNavigation
namespace Activation

/-! ### Values of gets -/

/-- If the activation succeeded, it has a value exactly if it is a get. -/
def Answers (activation : Activation) : Prop :=
  ∀ answer, activation.outcome = .ok answer → (answer.isSome ↔ activation.setter = false)

theorem allOf_append (left right : List Activation) :
    allOf (left ++ right) = allOf left ++ allOf right := by
  induction left with
  | nil => rfl
  | cons first rest ih => rw [List.cons_append, allOf, ih, allOf, List.append_assoc]

end Activation

open Activation (allOf outermostOf branchesOf records)

def Watched.Answers {α : Type} (watched : Watched α) : Prop :=
  ∀ world, ∀ activation ∈ allOf (watched.log world), activation.Answers

theorem Watched.answers_traced {α : Type} (node : NodeId) (kind : Kind) (object : Value)
    {setter : Bool} {result : α → Option Value} {inner : Watched α} (hinner : inner.Answers)
    (hresult : ∀ a, (result a).isSome ↔ setter = false) :
    (traced node kind object setter result inner).Answers := by
  intro world
  simp only [traced]
  split
  next => exact Activation.forall_mem_allOf_nil
  next outcome after _ =>
    refine Activation.forall_mem_allOf_cons.2 ⟨fun answer h => ?_, hinner _,
      Activation.forall_mem_allOf_nil⟩
    cases outcome with
    | error e => cases h
    | ok a =>
      cases h
      exact hresult a

theorem Watched.hereditary_answers : Hereditary fun _ watched => watched.Answers where
  silent _ _ := Activation.forall_mem_allOf_nil
  andThen hfirst hnext world := by
    simp only [Watched.andThen, Activation.allOf_append]
    refine List.forall_mem_append.2 ⟨hfirst world, ?_⟩
    split
    next outcome after _ => exact hnext outcome after
    next => exact Activation.forall_mem_allOf_nil
  choose hpick world := hpick world world
  within hwatched _ world := hwatched _
  get node kind source _ hinner := answers_traced node kind source hinner (by simp)
  set node kind target _ hinner := answers_traced node kind target hinner (by simp)

theorem Session.answers {moments : List Moment} {context : Context}
    (session : Session moments context) :
    ∀ activation ∈ Moment.activations moments, activation.Answers := by
  induction session with
  | fresh settings gateway => exact nofun
  | @get moments context after session workspace left entry source outcome call rest =>
    have hanswers := workspace.has_watched Watched.hereditary_answers
      (workspace.gateway context) Workspace.delegationDepth entry
    exact List.forall_mem_append.2 ⟨hanswers.get source _, rest⟩
  | @set moments context after session workspace left entry target value outcome call rest =>
    have hanswers := workspace.has_watched Watched.hereditary_answers
      (workspace.gateway context) Workspace.delegationDepth entry
    exact List.forall_mem_append.2 ⟨hanswers.set target value _, rest⟩
  | configure session settings gateway rest => exact rest
  | clearLast session rest => exact rest
  | reset session rest => exact rest

namespace Activation

/-! ### What a record tells -/

/-- The record tells what the call was about, how it ended, and the calls made directly during
it. -/
structure Told (activation : Activation) (call : Call) : Prop where
  node : call.node = activation.node
  kind : call.kind = activation.kind
  source : call.source = activation.object
  setter : call.setter = activation.setter
  children : call.children = records (outermostOf activation.inner)
  result : ∀ value, call.result = some value ↔ activation.outcome = .ok (some value)
  result_iff : call.result.isSome ↔ activation.setter = false ∧ activation.failed = false
  failure : ∀ text, call.failure = some text ↔
    ∃ error, activation.outcome = .error error ∧ error.message = text

mutual

theorem ids_branches (activation : Activation) (parent : Option CallId) :
    (activation.branches parent).map Branch.id = records activation.outermost := by
  match activation with
  | ⟨node, kind, object, setter, record, before, after, outcome, keep, inner⟩ =>
    cases record with
    | none =>
      rw [branches_of_none rfl, outermost_of_none rfl]
      exact ids_branchesOf inner parent
    | some id =>
      rw [branches_of_some rfl, outermost_of_some rfl]
      rfl

theorem ids_branchesOf (log : List Activation) (parent : Option CallId) :
    (branchesOf parent log).map Branch.id = records (outermostOf log) := by
  match log with
  | [] => rfl
  | first :: rest =>
    rw [branchesOf, List.map_append, ids_branches first parent, ids_branchesOf rest parent,
      outermostOf, records, records, records, List.filterMap_append]

end

theorem told_close {activation : Activation} (answers : activation.Answers) (id : CallId)
    (parent : Option CallId) :
    activation.Told ((activation.frame id).close parent activation.outcome).call := by
  have hchildren : ((activation.frame id).close parent activation.outcome).call.children =
      records (outermostOf activation.inner) := by
    rw [Frame.close, Call.children_ended, Frame.call, List.append_nil]
    exact ids_branchesOf activation.inner (some id)
  have hsetter : ∀ answer, activation.outcome = .ok answer →
      (answer.isSome ↔ activation.setter = false) := answers
  rw [Frame.close] at hchildren ⊢
  cases houtcome : activation.outcome with
  | error error =>
    rw [houtcome] at hchildren
    exact ⟨rfl, rfl, rfl, rfl, hchildren, by simp [houtcome, Call.ended, Frame.call],
      by simp [Activation.failed, houtcome, Call.ended, Frame.call],
      by simp [houtcome, Call.ended]⟩
  | ok answer =>
    rw [houtcome] at hchildren
    cases answer with
    | none =>
      have hset : activation.setter ≠ false := by simpa using hsetter none houtcome
      exact ⟨rfl, rfl, rfl, rfl, hchildren, by simp [houtcome, Call.ended, Frame.call],
        by simp [Activation.failed, houtcome, Call.ended, Frame.call, hset],
        by simp [houtcome, Call.ended, Frame.call]⟩
    | some value =>
      have hget : activation.setter = false := by simpa using hsetter (some value) houtcome
      exact ⟨rfl, rfl, rfl, rfl, hchildren, by simp [houtcome, Call.ended],
        by simp [Activation.failed, houtcome, Call.ended, hget],
        by simp [houtcome, Call.ended, Frame.call]⟩

mutual

theorem holds_outermost {pool : Pool} {parent : Option CallId} (activation : Activation)
    (holds : pool.HoldsAll parent (activation.branches parent)) {other : Activation}
    (hmem : other ∈ activation.outermost) {id : CallId} (hid : other.record = some id) :
    pool.Holds parent ((other.frame id).close parent other.outcome) := by
  match activation with
  | ⟨node, kind, object, setter, record, before, after, outcome, keep, inner⟩ =>
    cases record with
    | none =>
      rw [branches_of_none rfl] at holds
      rw [outermost_of_none rfl] at hmem
      exact holds_outermostOf inner holds hmem hid
    | some own =>
      rw [branches_of_some rfl] at holds
      rw [outermost_of_some rfl] at hmem
      rw [List.mem_singleton.1 hmem] at hid ⊢
      cases hid
      exact holds.1

theorem holds_outermostOf {pool : Pool} {parent : Option CallId} (log : List Activation)
    (holds : pool.HoldsAll parent (branchesOf parent log)) {other : Activation}
    (hmem : other ∈ outermostOf log) {id : CallId} (hid : other.record = some id) :
    pool.Holds parent ((other.frame id).close parent other.outcome) := by
  match log with
  | first :: rest =>
    rw [branchesOf, Pool.holdsAll_append] at holds
    rcases List.mem_append.1 hmem with hmem | hmem
    · exact holds_outermost first holds.1 hmem hid
    · exact holds_outermostOf rest holds.2 hmem hid

end

mutual

theorem outermost_subset (activation : Activation) : activation.outermost ⊆ activation.all := by
  match activation with
  | ⟨node, kind, object, setter, record, before, after, outcome, keep, inner⟩ =>
    cases record with
    | none =>
      rw [outermost_of_none rfl, all_eq]
      exact List.Subset.trans (outermostOf_subset inner) (List.subset_cons_self _ _)
    | some id =>
      rw [outermost_of_some rfl, all_eq]
      exact List.cons_subset_cons _ (List.nil_subset _)

theorem outermostOf_subset (log : List Activation) : outermostOf log ⊆ allOf log := by
  match log with
  | [] => exact List.Subset.refl _
  | first :: rest =>
    intro other hother
    rcases List.mem_append.1 hother with hother | hother
    · exact List.mem_append_left _ (outermost_subset first hother)
    · exact List.mem_append_right _ (outermostOf_subset rest hother)

end

/-! ### The whole tree of records -/

/-- The records below the retained one stand for the recorded calls made during the activation, one
for each, and are linked as these are nested. -/
structure Mirrors (activation : Activation) (trace : Trace) : Prop where
  last : trace.last = activation.record
  recorded : activation.record.isSome
  distinct : (records activation.all).Nodup
  below_iff : ∀ top, activation.record = some top → ∀ id,
    trace.pool.Below top id ↔ id ∈ records activation.all
  told : ∀ other ∈ activation.all, ∀ id, other.record = some id →
    ∃ call, trace.pool.get? id = some call ∧ other.Told call
  parent : ∀ top, activation.record = some top →
    ∃ call, trace.pool.get? top = some call ∧ call.parent = none
  parents : ∀ other ∈ activation.all, ∀ id, other.record = some id →
    ∀ child ∈ outermostOf other.inner, ∀ below, child.record = some below →
      ∃ call, trace.pool.get? below = some call ∧ call.parent = some id

theorem mirrors_of_shape {activation : Activation} {trace : Trace} {top : CallId}
    (hrecord : activation.record = some top) (shape : Shape trace [] (some activation.branch))
    (answers : ∀ other ∈ activation.all, other.Answers) : activation.Mirrors trace := by
  have hbranches : activation.branches none = [activation.branch] := by
    rw [branches_of_some hrecord, branch, hrecord]
    rfl
  have holds : trace.pool.HoldsAll none (activation.branches none) := by
    rw [hbranches]
    exact shape.holdsKept
  have hids : activation.branch.ids = records activation.all := by
    rw [records_all activation none, hbranches, Branch.idsAll_singleton]
  have hid : activation.branch.id = top := by
    rw [branch, hrecord]
    rfl
  have hroot : trace.pool.Holds none activation.branch := shape.holdsKept.1
  refine ⟨?_, by rw [hrecord]; rfl, ?_, fun top' htop' id => ?_, fun other hmem id hother => ?_,
    fun top' htop' => ?_, fun other hmem id hother child hchild below hbelow => ?_⟩
  · rw [shape.last, hrecord, Option.map_some, hid]
  · rw [← hids, ← Branch.idsAll_singleton]
    exact shape.nodup
  · rw [hrecord] at htop'
    cases htop'
    rw [← hids, hroot.mem_ids_iff, hid]
  · obtain ⟨above, hholds⟩ := holds_of_mem_all activation holds hmem hother
    exact ⟨_, hholds.get?, told_close (answers other hmem) id above⟩
  · rw [hrecord] at htop'
    cases htop'
    exact ⟨activation.branch.call, hid ▸ hroot.get?, Call.parent_ended _ _⟩
  · obtain ⟨above, hholds⟩ := holds_of_mem_all activation holds hmem hother
    obtain ⟨_, _, _, hinner⟩ := hholds
    have hchild' := holds_outermostOf other.inner hinner hchild hbelow
    exact ⟨_, hchild'.get?, Call.parent_ended _ _⟩

end Activation

theorem Moment.all_subset_activations {moments : List Moment} {activation : Activation}
    (hmem : activation ∈ outermost moments) : activation.all ⊆ activations moments := by
  induction moments with
  | nil => cases hmem
  | cons moment earlier ih =>
    cases moment with
    | cleared => exact ih hmem
    | call log =>
      intro other hother
      rcases List.mem_append.1 hmem with hmem | hmem
      · exact List.mem_append_left _
          (Activation.mem_allOf_trans (Activation.outermostOf_subset log hmem) hother)
      · exact List.mem_append_right _ (ih hmem hother)

/-- Whatever took place in a context before, the records of an outermost call that is retained
mirror the calls made during it, when it ends and as long as it is the one retained. -/
theorem Session.records_mirror_calls {moments : List Moment} {context : Context}
    (session : Session moments context) :
    (∀ activation ∈ Moment.outermost moments, activation.retains = true →
      activation.Mirrors activation.after) ∧
    ∀ activation, Moment.retained moments = some activation →
      activation.Mirrors context.trace := by
  have rest := session.atRest
  have hanswers : ∀ activation ∈ Moment.outermost moments, ∀ other ∈ activation.all,
      other.Answers := fun activation hmem other hother =>
    session.answers other (Moment.all_subset_activations hmem hother)
  refine ⟨fun activation hmem hretains => ?_, fun activation hretained => ?_⟩
  · obtain ⟨hrecord, hshape⟩ := rest.outermost activation hmem hretains
    obtain ⟨top, htop⟩ := Option.isSome_iff_exists.1 hrecord
    exact Activation.mirrors_of_shape htop hshape (hanswers activation hmem)
  · obtain ⟨hmem, hretains⟩ := Moment.mem_outermost_of_retained hretained
    obtain ⟨hrecord, _⟩ := rest.outermost activation hmem hretains
    obtain ⟨top, htop⟩ := Option.isSome_iff_exists.1 hrecord
    have hshape := rest.shape
    rw [hretained, Option.map_some] at hshape
    exact Activation.mirrors_of_shape htop hshape (hanswers activation hmem)

def listWorkspace : Workspace where
  trees := #[.node .list [some (.node (.property "x") [])]]

/-- The second get of a list of a property of null takes the place of the first. -/
theorem records_mirror_second_get : ∃ moments context activation, Session moments context ∧
    Moment.retained moments = some activation ∧ records activation.all = [2, 3] ∧
    activation.Mirrors context.trace := by
  have first := Session.get (.fresh { trace := true } none) listWorkspace _ { tree := 0 } .null
    _ rfl
  have session := Session.get first listWorkspace _ { tree := 0 } .null _ rfl
  exact ⟨_, _, _, session, rfl, rfl, session.records_mirror_calls.2 _ rfl⟩

end ObjectNavigation
