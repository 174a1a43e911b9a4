import ObjectNavigation.Proofs.Engine.Records

/-!
The life of a context. Between its calls, each of which may be of any tree over any object graph,
settings and gateway change, the retained record is given back, or the context is reset. A session
tells what has taken place so far, latest first.

Main statement: `Session.trace_at_rest`. Every activation leaves the stack as it found it; between
calls nothing is in progress, and the live records are those below the record of the last outermost
activation that was to be retained, as they were when it ended.
-/

namespace ObjectNavigation

/-- What matters about one moment in the life of a context. -/
inductive Moment where
  | call (log : List Activation)
  /-- The retained record was given back. -/
  | cleared

namespace Moment

def activations : List Moment → List Activation
  | [] => []
  | .call log :: earlier => Activation.allOf log ++ activations earlier
  | .cleared :: earlier => activations earlier

def outermost : List Moment → List Activation
  | [] => []
  | .call log :: earlier => Activation.outermostOf log ++ outermost earlier
  | .cleared :: earlier => outermost earlier

/-- The outermost activation whose record is retained. -/
def retained : List Moment → Option Activation
  | [] => none
  | .call log :: earlier => (Activation.lastRetained log).or (retained earlier)
  | .cleared :: _ => none

end Moment

def Workspace.watch (workspace : Workspace) (context : Context) (entry : Entry) : WatchedHandle :=
  workspace.watched (workspace.gateway context) Workspace.delegationDepth entry

/-- The context can be reached, and these moments, latest first, led to it. -/
inductive Session : List Moment → Context → Prop where
  | fresh (settings : Settings) (gateway : Option RegistryId) : Session [] { settings, gateway }
  | get {moments : List Moment} {context after : Context} (session : Session moments context)
      (workspace left : Workspace) (entry : Entry) (source : Value)
      (outcome : Except EvalError Value)
      (call : workspace.perform context ((workspace.handle context entry).get source) =
        (.ok outcome, after, left)) :
      Session (.call (((workspace.watch context entry).get source).log
        (workspace.world context)) :: moments) after
  | set {moments : List Moment} {context after : Context} (session : Session moments context)
      (workspace left : Workspace) (entry : Entry) (target value : Value)
      (outcome : Except EvalError Unit)
      (call : workspace.perform context ((workspace.handle context entry).set target value) =
        (.ok outcome, after, left)) :
      Session (.call (((workspace.watch context entry).set target value).log
        (workspace.world context)) :: moments) after
  | configure {moments : List Moment} {context : Context} (session : Session moments context)
      (settings : Settings) (gateway : Option RegistryId) :
      Session moments { context with settings, gateway }
  | clearLast {moments : List Moment} {context : Context} (session : Session moments context) :
      Session (.cleared :: moments) { context with trace := context.trace.clearLast }
  | reset {moments : List Moment} {context : Context} (session : Session moments context) :
      Session (.cleared :: moments) context.reset

theorem Session.get_of_isOk {moments : List Moment} {context : Context}
    (session : Session moments context) (workspace : Workspace) (entry : Entry) (source : Value)
    (h : (workspace.perform context ((workspace.handle context entry).get source)).1.isOk = true) :
    Session (.call (((workspace.watch context entry).get source).log
        (workspace.world context)) :: moments)
      (workspace.perform context ((workspace.handle context entry).get source)).2.1 := by
  cases hperform : workspace.perform context ((workspace.handle context entry).get source) with
  | mk result rest =>
    rw [hperform] at h
    cases result with
    | error misuse => cases h
    | ok outcome => exact session.get workspace rest.2 entry source outcome hperform

namespace Workspace
variable (workspace : Workspace) (context : Context) (entry : Entry)

theorem handle_watch : (workspace.watch context entry).handle = workspace.handle context entry :=
  workspace.handle_watched _ _ entry

theorem follows_watch : (workspace.watch context entry).Follows :=
  workspace.follows_watched _ _ entry

theorem course_of_perform {α : Type} {watched : Watched α} (hfollows : watched.Follows)
    {act : Eval α} (hact : watched.act = act) {outcome : Except EvalError α} {after : Context}
    {left : Workspace} (call : workspace.perform context act = (.ok outcome, after, left)) :
    Course context.trace (watched.log (workspace.world context)) after.trace := by
  subst hact
  simp only [perform] at call
  cases h : watched.act (workspace.world context) with
  | mk result world =>
    simp only [h, Prod.mk.injEq] at call
    obtain ⟨rfl, rfl, _⟩ := call
    exact hfollows _ _ _ h

end Workspace

/-- What holds of a context between calls. -/
structure AtRest (moments : List Moment) (trace : Trace) : Prop where
  shape : Shape trace [] ((Moment.retained moments).map Activation.branch)
  balanced : ∀ activation ∈ Moment.activations moments, activation.Balanced
  outermost : ∀ activation ∈ Moment.outermost moments, activation.retains = true →
    activation.record.isSome ∧ Shape activation.after [] (some activation.branch)

theorem AtRest.call {moments : List Moment} {before after : Trace} {log : List Activation}
    (rest : AtRest moments before) (course : Course before log after) :
    AtRest (.call log :: moments) after := by
  obtain ⟨hshape, hbalanced, houtermost⟩ := course.outermost rest.shape
  refine ⟨?_, List.forall_mem_append.2 ⟨hbalanced, rest.balanced⟩,
    List.forall_mem_append.2 ⟨houtermost, rest.outermost⟩⟩
  rw [Moment.retained, Option.map_or]
  exact hshape

theorem Session.atRest {moments : List Moment} {context : Context}
    (session : Session moments context) : AtRest moments context.trace := by
  induction session with
  | fresh settings gateway =>
    exact ⟨.empty, by simp [Moment.activations], by simp [Moment.outermost]⟩
  | @get moments context after session workspace left entry source outcome call rest =>
    have hfollows := workspace.follows_watch context entry
    refine rest.call (workspace.course_of_perform context (hfollows.get source) ?_ call)
    rw [← workspace.handle_watch]
    rfl
  | @set moments context after session workspace left entry target value outcome call rest =>
    have hfollows := workspace.follows_watch context entry
    refine rest.call (workspace.course_of_perform context (hfollows.set target value) ?_ call)
    rw [← workspace.handle_watch]
    rfl
  | configure session settings gateway rest => exact rest
  | clearLast session rest => exact ⟨rest.shape.clearLast, rest.balanced, rest.outermost⟩
  | reset session rest => exact ⟨rest.shape.reset, rest.balanced, rest.outermost⟩

theorem Moment.mem_outermost_of_retained {moments : List Moment} {activation : Activation}
    (h : retained moments = some activation) :
    activation ∈ outermost moments ∧ activation.retains = true := by
  induction moments with
  | nil => cases h
  | cons moment earlier ih =>
    cases moment with
    | cleared => cases h
    | call log =>
      rcases Option.or_eq_some_iff.1 h with h | ⟨_, h⟩
      · have hmem := List.mem_filter.1 (List.mem_of_getLast? h)
        exact ⟨List.mem_append_left _ hmem.1, hmem.2⟩
      · exact ⟨List.mem_append_right _ (ih h).1, (ih h).2⟩

namespace Shape
variable {trace : Trace} {kept : Option Branch}

theorem live_iff_below (shape : Shape trace [] kept) (x : CallId) :
    (trace.pool.get? x).isSome ↔ ∃ top ∈ trace.last, trace.pool.Below top x := by
  rw [shape.live, shape.last]
  cases hkept : kept with
  | none => simp [Frame.ids, Branch.idsAll]
  | some branch =>
    have hholds := shape.holdsKept
    rw [hkept] at hholds
    simp [Frame.ids, hholds.1.mem_ids_iff]

theorem below_of_failed (shape : Shape trace [] kept) {x : CallId} (h : trace.failed = some x) :
    ∃ top ∈ trace.last, trace.pool.Below top x := by
  rw [← shape.live_iff_below, shape.live]
  rw [shape.failed] at h
  obtain ⟨branch, hbranch, hculprit⟩ := Option.bind_eq_some_iff.1 h
  have hblamed : branch.blamed = some x := by
    rw [Branch.culprit] at hculprit
    split at hculprit
    next => exact hculprit
    next => cases hculprit
  simpa [Frame.ids, Branch.idsAll, hbranch] using Branch.mem_ids_of_blamed hblamed

end Shape

theorem AtRest.retained {moments : List Moment} {trace : Trace} (rest : AtRest moments trace)
    {activation : Activation} (h : Moment.retained moments = some activation) :
    ∃ top, activation.record = some top ∧ trace.last = some top ∧
      (∃ call, trace.pool.get? top = some call ∧ call.parent = none) ∧
      ∀ id, activation.after.pool.Below top id →
        trace.pool.get? id = activation.after.pool.get? id := by
  obtain ⟨hmem, hretains⟩ := Moment.mem_outermost_of_retained h
  obtain ⟨hrecord, hended⟩ := rest.outermost activation hmem hretains
  obtain ⟨top, htop⟩ := Option.isSome_iff_exists.1 hrecord
  have hshape := rest.shape
  rw [h, Option.map_some] at hshape
  have hid : activation.branch.id = top := by
    rw [Activation.branch, htop]
    rfl
  have hnow : trace.pool.Holds none activation.branch := hshape.holdsKept.1
  have hthen : activation.after.pool.Holds none activation.branch := hended.holdsKept.1
  refine ⟨top, htop, hid ▸ hshape.last, ⟨activation.branch.call, hid ▸ hnow.get?, ?_⟩,
    fun id hbelow => hnow.get?_eq hthen ?_⟩
  · exact Call.parent_ended _ _
  · rw [hthen.mem_ids_iff, hid]
    exact hbelow

/-- Every call leaves the stack as it found it, nested or not and recorded or not. Between calls
nothing is in progress or pending, the live records are those below the retained one, which belongs
to the last outermost recorded activation that failed or was to be kept, and nothing below it has
changed since that activation ended; the record of the failure is among them. -/
theorem Session.trace_at_rest {moments : List Moment} {context : Context}
    (session : Session moments context) :
    (∀ activation ∈ Moment.activations moments,
      activation.after.current = activation.before.current ∧
        activation.after.root = activation.before.root) ∧
    context.trace.current = none ∧ context.trace.root = none ∧ context.trace.pending = none ∧
    (∀ id, (context.trace.pool.get? id).isSome ↔
      ∃ top ∈ context.trace.last, context.trace.pool.Below top id) ∧
    (Moment.retained moments = none → context.trace.last = none) ∧
    (∀ activation, Moment.retained moments = some activation →
      ∃ top, activation.record = some top ∧ context.trace.last = some top ∧
        (∃ call, context.trace.pool.get? top = some call ∧ call.parent = none) ∧
        ∀ id, activation.after.pool.Below top id →
          context.trace.pool.get? id = activation.after.pool.get? id) ∧
    ∀ id, context.trace.failed = some id → (context.trace.pool.get? id).isSome ∧
      ∃ top ∈ context.trace.last, context.trace.pool.Below top id := by
  have rest := session.atRest
  refine ⟨rest.balanced, rest.shape.current, rest.shape.root, rest.shape.pending,
    rest.shape.live_iff_below, fun hnone => ?_, fun activation => rest.retained, fun id hid => ?_⟩
  · rw [rest.shape.last, hnone]
    rfl
  · have hbelow := rest.shape.below_of_failed hid
    exact ⟨(rest.shape.live_iff_below id).2 hbelow, hbelow⟩

def propertyWorkspace : Workspace := { trees := #[.node (.property "x") []] }

/-- After a get and a set of a property of null, which both fail, the record of the set alone is
live. -/
theorem trace_at_rest_after_failures : ∃ moments context, Session moments context ∧
    context.trace.last = some 1 ∧ context.trace.failed = some 1 ∧ context.trace.current = none ∧
    ∀ id, (context.trace.pool.get? id).isSome ↔
      ∃ top ∈ context.trace.last, context.trace.pool.Below top id := by
  have read := Session.get (.fresh { trace := true } none) propertyWorkspace _ { tree := 0 } .null
    _ rfl
  have session := Session.set read propertyWorkspace _ { tree := 0 } .null .null _ rfl
  have hrest := session.trace_at_rest
  exact ⟨_, _, session, rfl, rfl, hrest.2.1, hrest.2.2.2.2.1⟩

end ObjectNavigation
