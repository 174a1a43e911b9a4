import ObjectNavigation.Proofs.Engine.Course
import ObjectNavigation.Proofs.Trace.Completion

/-!
What is recorded of activations. A recorded activation leaves a branch, in which those recorded
during it are the branches of its record; one that is not recorded leaves the branches of those
inside it. Below a record in progress a course of activations adds its branches to the frame
(`Course.nested`); with nothing in progress it leaves the branch of the last outermost one that is
to be retained (`Course.outermost`).
-/

namespace ObjectNavigation
namespace Activation

mutual

/-- The branches that an activation leaves below `parent`. -/
def branches (parent : Option CallId) : Activation → List Branch
  | ⟨node, kind, object, setter, record, _, _, outcome, _, inner⟩ =>
    match record with
    | some id =>
      [Frame.close ⟨id, node, kind, object, setter, branchesOf (some id) inner⟩ parent outcome]
    | none => branchesOf parent inner

def branchesOf (parent : Option CallId) : List Activation → List Branch
  | [] => []
  | activation :: rest => activation.branches parent ++ branchesOf parent rest

end

/-- The frame of an activation with the record `id` when all inside it has taken place. -/
def frame (activation : Activation) (id : CallId) : Frame where
  id
  node := activation.node
  kind := activation.kind
  object := activation.object
  setter := activation.setter
  done := branchesOf (some id) activation.inner

theorem grow_begun (activation : Activation) (id : CallId) :
    Frame.grow ⟨id, activation.node, activation.kind, activation.object, activation.setter, []⟩
      (branchesOf (some id) activation.inner) = activation.frame id := by
  simp [Frame.grow, frame]

theorem branches_of_none {activation : Activation} (h : activation.record = none)
    (parent : Option CallId) :
    activation.branches parent = branchesOf parent activation.inner := by
  cases activation
  subst h
  rfl

theorem branches_of_some {activation : Activation} {id : CallId} (h : activation.record = some id)
    (parent : Option CallId) :
    activation.branches parent = [(activation.frame id).close parent activation.outcome] := by
  cases activation
  subst h
  rfl

theorem outermost_of_none {activation : Activation} (h : activation.record = none) :
    activation.outermost = outermostOf activation.inner := by
  cases activation
  subst h
  rfl

theorem outermost_of_some {activation : Activation} {id : CallId}
    (h : activation.record = some id) : activation.outermost = [activation] := by
  cases activation
  subst h
  rfl

theorem all_eq (activation : Activation) :
    activation.all = activation :: allOf activation.inner := by
  cases activation
  rfl

theorem forall_mem_allOf_nil {p : Activation → Prop} : ∀ activation ∈ allOf [], p activation := by
  intro activation hmem
  cases hmem

theorem forall_mem_allOf_cons {activation : Activation} {rest : List Activation}
    {property : Activation → Prop} :
    (∀ other ∈ allOf (activation :: rest), property other) ↔
      property activation ∧ (∀ other ∈ allOf activation.inner, property other) ∧
        ∀ other ∈ allOf rest, property other := by
  simp only [allOf, all_eq, List.cons_append, List.forall_mem_cons, List.forall_mem_append]

def retains (activation : Activation) : Bool :=
  activation.failed || activation.keep

def branch (activation : Activation) : Branch :=
  (activation.frame (activation.record.getD 0)).close none activation.outcome

theorem failed_branch (activation : Activation) : activation.branch.failed = activation.failed :=
  Frame.failed_close _ _ _

/-- The outermost activation of a log whose record is retained in the end. -/
def lastRetained (log : List Activation) : Option Activation :=
  ((outermostOf log).filter retains).getLast?

theorem lastRetained_cons (activation : Activation) (rest : List Activation) :
    lastRetained (activation :: rest) =
      (lastRetained rest).or ((activation.outermost.filter retains).getLast?) := by
  rw [lastRetained, outermostOf, List.filter_append, List.getLast?_append]
  rfl

def Balanced (activation : Activation) : Prop :=
  activation.after.current = activation.before.current ∧
    activation.after.root = activation.before.root

end Activation

open Activation (branchesOf allOf outermostOf lastRetained)

theorem Frame.grow_grow (frame : Frame) (left right : List Branch) :
    (frame.grow left).grow right = frame.grow (left ++ right) := by
  simp [grow]

namespace Shape
variable {before after : Trace} {frame : Frame} {outer : List Frame} {kept other : Option Branch}

theorem current_grow (shape : Shape before (frame :: outer) kept) {branches : List Branch}
    (grown : Shape after (frame.grow branches :: outer) other) :
    after.current = before.current := by
  rw [grown.current, shape.current]
  rfl

theorem root_grow (shape : Shape before (frame :: outer) kept) {branches : List Branch}
    (grown : Shape after (frame.grow branches :: outer) other) : after.root = before.root := by
  rw [grown.root, shape.root]
  cases outer <;> simp [Frame.grow]

end Shape

namespace Course
variable {before after : Trace} {log : List Activation}

/-- Below a record in progress, the activations leave their branches there and no more. -/
theorem nested (course : Course before log after) {frame : Frame} {outer : List Frame}
    {kept : Option Branch} (shape : Shape before (frame :: outer) kept) :
    Shape after (frame.grow (branchesOf (some frame.id) log) :: outer) kept ∧
      ∀ activation ∈ allOf log, activation.Balanced := by
  -- Without a record an activation leaves what is below it to the frame, with one its own branch.
  induction course generalizing frame outer with
  | nil trace => exact ⟨by simpa [branchesOf, Frame.grow] using shape, by simp [allOf]⟩
  | @unrecorded activation rest before ended after record begins inner ends follow ihInner
      ihFollow =>
    obtain ⟨hended, hinner⟩ := ihInner shape
    obtain ⟨hafter, hrest⟩ := ihFollow hended
    refine ⟨?_, Activation.forall_mem_allOf_cons.2 ⟨?_, hinner, hrest⟩⟩
    · rw [branchesOf, Activation.branches_of_none record, ← Frame.grow_grow]
      exact hafter
    · rw [Activation.Balanced, begins, ends]
      exact ⟨shape.current_grow hended, shape.root_grow hended⟩
  | @recorded activation rest before inside ended after id pool record begins created inner
      completed ends follow ihInner ihFollow =>
    have hcreates := shape.sound.create activation.node activation.kind activation.object
      activation.setter
    rw [created] at hcreates
    obtain ⟨hinside, hinner⟩ := ihInner (shape.begin hcreates)
    rw [Activation.grow_begun] at hinside
    have hended := hinside.complete_nested activation.outcome activation.keep
    rw [show (activation.frame id).id = id from rfl, completed] at hended
    obtain ⟨hafter, hrest⟩ := ihFollow hended
    refine ⟨?_, Activation.forall_mem_allOf_cons.2 ⟨?_, hinner, hrest⟩⟩
    · rw [branchesOf, Activation.branches_of_some record, ← Frame.grow_grow]
      exact hafter
    · rw [Activation.Balanced, begins, ends]
      exact ⟨shape.current_grow hended, shape.root_grow hended⟩

/-- With nothing in progress, the activations leave the branch of the last outermost one that is to
be retained, and each such branch is there when its activation ends. -/
theorem outermost (course : Course before log after) {kept : Option Branch}
    (shape : Shape before [] kept) :
    Shape after [] (((lastRetained log).map Activation.branch).or kept) ∧
      (∀ activation ∈ allOf log, activation.Balanced) ∧
      ∀ activation ∈ outermostOf log, activation.retains = true →
        activation.record.isSome ∧ Shape activation.after [] (some activation.branch) := by
  -- Below a record all goes into its branch, as `nested` says, so only outermost ones are left.
  induction course generalizing kept with
  | nil trace => exact ⟨shape, by simp [allOf], by simp [outermostOf]⟩
  | @unrecorded activation rest before ended after record begins inner ends follow ihInner
      ihFollow =>
    obtain ⟨hended, hinner, hretained⟩ := ihInner shape
    obtain ⟨hafter, hrest, hretained'⟩ := ihFollow hended
    refine ⟨?_, Activation.forall_mem_allOf_cons.2 ⟨?_, hinner, hrest⟩, ?_⟩
    · rw [Activation.lastRetained_cons, Activation.outermost_of_none record, Option.map_or,
        Option.or_assoc]
      exact hafter
    · rw [Activation.Balanced, begins, ends, hended.current, hended.root, shape.current, shape.root]
      exact ⟨rfl, rfl⟩
    · rw [outermostOf, Activation.outermost_of_none record]
      exact List.forall_mem_append.2 ⟨hretained, hretained'⟩
  | @recorded activation rest before inside ended after id pool record begins created inner
      completed ends follow ihInner ihFollow =>
    have hcreates := shape.sound.create activation.node activation.kind activation.object
      activation.setter
    rw [created] at hcreates
    obtain ⟨hinside, hinner⟩ := inner.nested (shape.begin hcreates)
    rw [Activation.grow_begun] at hinside
    have hbranch : (activation.frame id).close none activation.outcome = activation.branch := by
      rw [Activation.branch, record]
      rfl
    have hended := hinside.complete_outermost activation.outcome activation.keep hbranch
    rw [show (activation.frame id).id = id from rfl, completed, Activation.failed_branch,
      ← Activation.retains] at hended
    obtain ⟨hafter, hrest, hretained⟩ := ihFollow hended
    refine ⟨?_, Activation.forall_mem_allOf_cons.2 ⟨?_, hinner, hrest⟩, ?_⟩
    · rw [Activation.lastRetained_cons, Activation.outermost_of_some record, Option.map_or,
        Option.or_assoc]
      cases hretains : activation.retains with
      | true => simpa [hretains] using hafter
      | false => simpa [hretains] using hafter
    · rw [Activation.Balanced, begins, ends, hended.current, hended.root, shape.current, shape.root]
      exact ⟨rfl, rfl⟩
    · rw [outermostOf, Activation.outermost_of_some record]
      refine List.forall_mem_append.2 ⟨fun other hother hretains => ?_, hretained⟩
      rw [List.mem_singleton.1 hother] at hretains ⊢
      rw [if_pos hretains] at hended
      exact ⟨by rw [record]; rfl, ends ▸ hended⟩

end Course
end ObjectNavigation
