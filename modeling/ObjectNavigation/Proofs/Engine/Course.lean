import ObjectNavigation.Proofs.Engine.Layers

/-!
How traces change. `Course before log after` says that the activations of a log, one after the
other, lead from one trace to another: a recorded one pushes its record and completes it, one that
is not recorded leaves the trace to those inside it. Whatever bodies and accessors do, a
computation that is not cut short leads along its log (`Workspace.follows_watched`), so a property
of traces is proved for every evaluation by induction on `Course`.
-/

namespace ObjectNavigation

/-- The activations lead from one trace to the other. -/
inductive Course : Trace → List Activation → Trace → Prop where
  | nil (trace : Trace) : Course trace [] trace
  | unrecorded {activation : Activation} {rest : List Activation} {before ended after : Trace}
      (record : activation.record = none) (begins : activation.before = before)
      (inner : Course before activation.inner ended) (ends : activation.after = ended)
      (follow : Course ended rest after) : Course before (activation :: rest) after
  | recorded {activation : Activation} {rest : List Activation}
      {before inside ended after : Trace} {id : CallId} {pool : Pool}
      (record : activation.record = some id) (begins : activation.before = before)
      (created : before.pool.create activation.node activation.kind activation.object
        activation.setter = (id, pool))
      (inner : Course (({ before with pool } : Trace).push id) activation.inner inside)
      (completed : inside.complete id activation.outcome activation.keep = ended)
      (ends : activation.after = ended) (follow : Course ended rest after) :
      Course before (activation :: rest) after

theorem Course.append {before middle after : Trace} {left right : List Activation}
    (first : Course before left middle) (second : Course middle right after) :
    Course before (left ++ right) after := by
  induction first with
  | nil trace => exact second
  | unrecorded record begins inner ends _ _ ih =>
    exact .unrecorded record begins inner ends (ih second)
  | recorded record begins created inner completed ends _ _ ih =>
    exact .recorded record begins created inner completed ends (ih second)

namespace Watched
variable {α β : Type}

/-- Unless the computation is cut short, its log leads from the trace before to the trace after. -/
def Follows (watched : Watched α) : Prop :=
  ∀ (world after : World) (outcome : Except EvalError α),
    watched.act world = (.ok outcome, after) →
      Course world.context.trace (watched.log world) after.context.trace

theorem follows_silent {act : Eval α}
    (same : ∀ world, (act world).2.context.trace = world.context.trace) :
    (silent act).Follows := by
  intro world after outcome h
  have hafter : (act world).2 = after := congrArg Prod.snd h
  rw [← hafter, same]
  exact .nil _

theorem follows_andThen {first : Watched α} {next : Except EvalError α → Watched β}
    (hfirst : first.Follows) (hnext : ∀ outcome, (next outcome).Follows) :
    (first.andThen next).Follows := by
  intro world after outcome h
  simp only [andThen, Eval.andThen] at h ⊢
  cases hact : first.act world with
  | mk result middle =>
    simp only [hact] at h ⊢
    cases result with
    | error misuse => simp at h
    | ok reached => exact (hfirst _ _ _ hact).append (hnext reached _ _ _ h)

theorem follows_choose {pick : World → Watched α} (hpick : ∀ world, (pick world).Follows) :
    (choose pick).Follows :=
  fun world after outcome h => hpick world world after outcome h

theorem follows_within {change : World → World} {watched : Watched α} (hwatched : watched.Follows)
    (same : ∀ world, (change world).context.trace = world.context.trace) :
    (watched.within change).Follows := by
  intro world after outcome h
  rw [← same world]
  exact hwatched _ _ _ h

theorem follows_traced (node : NodeId) (kind : Kind) (source : Value) (setter : Bool)
    (result : α → Option Value) {inner : Watched α} (hinner : inner.Follows) :
    (traced node kind source setter result inner).Follows := by
  intro world after outcome h
  simp only [traced] at h ⊢
  rw [h]
  simp only [Engine.traced] at h
  obtain ⟨id, pool, hcreate⟩ : ∃ id pool,
      world.context.trace.pool.create node kind source setter = (id, pool) := ⟨_, _, rfl⟩
  simp only [record?, entered]
  split at h
  next htrace =>
    simp only [htrace, if_true, hcreate, Eval.andThen] at h ⊢
    cases hact : inner.act (world.withTrace (({ world.context.trace with pool }).push id)) with
    | mk finished inside =>
      simp only [hact] at h
      cases finished with
      | error misuse => simp at h
      | ok reached =>
        obtain ⟨rfl, rfl⟩ : reached = outcome ∧ _ = after := by simpa using h
        exact .recorded rfl rfl hcreate (hinner _ _ _ hact) rfl rfl (.nil _)
  next htrace =>
    rw [if_neg htrace, if_neg htrace]
    exact .unrecorded rfl rfl (hinner _ _ _ h) rfl (.nil _)

theorem hereditary_follows : Hereditary fun _ watched => watched.Follows where
  silent := follows_silent
  andThen := follows_andThen
  choose := follows_choose
  within := follows_within
  get node kind source _ hinner := follows_traced node kind source false some hinner
  set node kind target _ hinner := follows_traced node kind target true (fun _ => none) hinner

end Watched

def WatchedHandle.Follows (handle : WatchedHandle) : Prop :=
  handle.Has fun _ watched => watched.Follows

theorem Workspace.follows_watched (workspace : Workspace) (gateway : Option Registry)
    (depth : Nat) (entry : Entry) : (workspace.watched gateway depth entry).Follows :=
  workspace.has_watched Watched.hereditary_follows gateway depth entry

end ObjectNavigation
