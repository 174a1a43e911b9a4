import ObjectNavigation.Proofs.Engine.Caching
import ObjectNavigation.Proofs.Engine.Closure
import ObjectNavigation.Proofs.Script.Sees

/-!
Tracing changes no evaluation. A computation is blind if from states that differ in no more than the
flags for tracing and keeping, the pool and the records, it has one outcome and leads to states that
again differ in no more than that: the graph, the journal of the host, the constants and what the
latest call was about come out the same. Whatever records are made, completed and given back on the
way, the nodes of a tree of the library are blind (`Tree.tracing_changes_nothing`).
-/

namespace ObjectNavigation

/-- The surface without the flags for tracing and keeping. -/
def Surface.untraced (surface : Surface) : Surface :=
  { surface with settings := { root := surface.settings.root } }

/-- The context without the flags for tracing and keeping, and without records. -/
def Context.untraced (context : Context) : Context :=
  { context with settings := { root := context.settings.root }, trace := {} }

def World.untraced (world : World) : World :=
  { world with context := world.context.untraced }

theorem Surface.sight_untraced :
    Script.Sight fun surface surface' => surface.untraced = surface'.untraced where
  heap h := (congrArg Surface.heap h :)
  root h := (congrArg (fun surface : Surface => surface.settings.root) h :)
  withHeap h heap := congrArg (Surface.withHeap · heap) h

namespace World
variable {world world' : World}

theorem constants_eq (h : world.untraced = world'.untraced) : world.constants = world'.constants :=
  (congrArg World.constants h :)

theorem outside_eq (h : world.untraced = world'.untraced) : world.outside = world'.outside :=
  (congrArg World.outside h :)

theorem surface_eq (h : world.untraced = world'.untraced) :
    world.surface.untraced = world'.surface.untraced :=
  congrArg World.surface h

theorem withOutside_eq (h : world.untraced = world'.untraced) (outside : Outside) :
    ({ world with outside } : World).untraced = ({ world' with outside } : World).untraced :=
  (congrArg (fun world : World => { world with outside }) h :)

theorem withSurface_eq (h : world.untraced = world'.untraced) {surface surface' : Surface}
    (hsurface : surface.untraced = surface'.untraced) :
    (world.withSurface surface).untraced = (world'.withSurface surface').untraced := by
  have heq : ∀ (world : World) (surface : Surface), (world.withSurface surface).untraced =
      world.untraced.withSurface surface.untraced := fun _ _ => rfl
  rw [heq, heq, h, hsurface]

end World

/-- From states that differ in records and flags alone: one outcome, and states of that kind. -/
def Eval.Blind {α : Type} (act : Eval α) : Prop :=
  ∀ world world', world.untraced = world'.untraced →
    (act world).1 = (act world').1 ∧ (act world).2.untraced = (act world').2.untraced

structure Handle.Blind (handle : Handle) : Prop where
  get : ∀ source, (handle.get source).Blind
  set : ∀ target value, (handle.set target value).Blind
  ask : ∀ question, (handle.ask question).Blind

namespace Eval.Blind
variable {α β : Type}

theorem finish (outcome : Except EvalError α) : (Eval.finish outcome).Blind :=
  fun _ _ h => ⟨rfl, h⟩

theorem misuse (misuse : Misuse) : (Eval.misuse misuse : Eval α).Blind :=
  fun _ _ h => ⟨rfl, h⟩

theorem andThen {act : Eval α} (first : act.Blind) {next : Except EvalError α → Eval β}
    (hnext : ∀ outcome, (next outcome).Blind) : (act.andThen next).Blind := by
  intro world world' h
  obtain ⟨houtcome, hafter⟩ := first world world' h
  unfold Eval.andThen
  rcases hact : act world with ⟨outcome, after⟩
  rcases hact' : act world' with ⟨outcome', after'⟩
  rw [hact, hact'] at houtcome hafter
  cases houtcome
  cases outcome with
  | ok answer => exact hnext answer after after' hafter
  | error misuse => exact ⟨rfl, hafter⟩

theorem invoke (gateway : Option Registry) (call : Invocation) :
    (ObjectNavigation.invoke gateway call).Blind := by
  intro world world' h
  have houtside := World.outside_eq h
  cases gateway with
  | none =>
    refine ⟨?_, h⟩
    simp only [ObjectNavigation.invoke, World.heap, houtside]
  | some registry =>
    simp only [ObjectNavigation.invoke, houtside, true_and]
    exact World.withOutside_eq h _

theorem traced {act : Eval α} (h : act.Blind) (node : NodeId) (kind : Kind) (source : Value)
    (setter : Bool) (result : α → Option Value) :
    (Engine.traced node kind source setter result act).Blind := by
  intro world world' heq
  obtain ⟨trace, _, houtcome, hafter⟩ :=
    Engine.traced_eq_withTrace node kind source setter result act world
  obtain ⟨trace', _, houtcome', hafter'⟩ :=
    Engine.traced_eq_withTrace node kind source setter result act world'
  obtain ⟨hsame, hsame'⟩ := h (world.withTrace trace) (world'.withTrace trace') heq
  rw [houtcome, houtcome', hafter, hafter']
  exact ⟨hsame, hsame'⟩

theorem visiting {act : Eval α} (h : act.Blind) (node : NodeId) (object : Value) :
    (Engine.visiting node object act).Blind :=
  fun world world' heq => h (world.visit node object) (world'.visit node object)
    (congrArg (World.visit · node object) heq)

theorem run {C : Type} {reach : C → Handle} (hreach : ∀ child, (reach child).Blind)
    (gateway : Option Registry) {script : Script C α}
    (sees : script.Sees fun surface surface' => surface.untraced = surface'.untraced) :
    (script.run reach gateway).Blind := by
  induction sees with
  | done outcome => exact finish outcome
  | get _ ih => exact ((hreach _).get _).andThen ih
  | set _ ih => exact ((hreach _).set _ _).andThen ih
  | ask _ ih => exact ((hreach _).ask _).andThen ih
  | invoke _ ih => exact (invoke gateway _).andThen ih
  | @look next agree _ ih =>
    intro world world' h
    have hnext := agree _ _ (World.surface_eq h)
    have hrest := ih world.surface world world' h
    rw [Script.run]
    dsimp only
    rwa [← hnext]
  | alter agree _ ih =>
    intro world world' h
    exact ih _ _ (World.withSurface_eq h (agree _ _ (World.surface_eq h)))

end Eval.Blind

structure Accessor.Blind (accessor : Accessor) (env : Env) : Prop where
  read : ∀ source, ((accessor.read source).run env.enter env.gateway).Blind
  assign : ∀ target value, ((accessor.assign target value).run env.enter env.gateway).Blind

/-! ### Trees -/

theorem Eval.closed_blind (home : TreeId) : Eval.Closed home fun _ act => act.Blind where
  finish := .finish
  misuse := .misuse
  andThen first hnext := first.andThen hnext
  choose h world world' heq := by
    obtain ⟨chosen, hchosen, hact⟩ := h world.constants
    rw [hact world rfl, hact world' (World.constants_eq heq).symm]
    exact hchosen world world' heq
  check h id _ _ heq := h _ _ (congrArg (fun world : World =>
    { world with constants := world.constants.check home id }) heq :)
  keep h id value _ _ heq := h _ _ (congrArg (fun world : World =>
    { world with constants := world.constants.keep home id value }) heq :)
  traced h := h.traced
  visiting h := h.visiting

theorem Handle.blind_iff {handle : Handle} :
    handle.Blind ↔ handle.Has fun _ act => act.Blind :=
  ⟨fun h => ⟨h.get, h.set, h.ask⟩, fun h => ⟨h.get, h.set, h.ask⟩⟩

namespace Tree
variable {env : Env} {home : TreeId}

theorem carries_blind {tree : Tree} (standard : tree.all Body.isStandard = true)
    (gateway : Option Registry) : tree.Carries (fun _ act => act.Blind) gateway := by
  rintro id ⟨body, slots⟩ hsub
  have hall := hsub.all standard
  rw [all, Bool.and_eq_true] at hall
  exact {
    read := fun hreach source => .run (fun index => Handle.blind_iff.2 (hreach index)) gateway
      (Body.sees_read Surface.sight_untraced hall.1 _ source)
    assign := fun hreach target value => .run (fun index => Handle.blind_iff.2 (hreach index))
      gateway (Body.sees_assign Surface.sight_untraced hall.1 _ target value)
    ask := fun hreach question => .run (fun index => Handle.blind_iff.2 (hreach index)) gateway
      (Body.sees_ask Surface.sight_untraced hall.1 _ question) }

theorem has_blind (accessors : ∀ id, ∀ accessor ∈ env.accessor home id, accessor.Blind env) :
    ∀ id, ∀ accessor ∈ env.accessor home id, accessor.Has (fun _ act => act.Blind) env :=
  fun id accessor h => ⟨(accessors id accessor h).read, (accessors id accessor h).assign⟩

theorem blind_handle (accessors : ∀ id, ∀ accessor ∈ env.accessor home id, accessor.Blind env)
    (id : NodeId) {tree : Tree} (standard : tree.all Body.isStandard = true) :
    (tree.handle env home id).Blind :=
  Handle.blind_iff.2 ((Eval.closed_blind home).handle (has_blind accessors)
    (carries_blind standard env.gateway) id)

/-- With or without records, gets and sets of a tree of the library and of each of its nodes have
the same outcomes, and leave the same graph, journal, constants, and note of the latest call. -/
theorem tracing_changes_nothing {tree : Tree} (standard : tree.all Body.isStandard = true)
    (accessors : ∀ id, ∀ accessor ∈ env.accessor home id, accessor.Blind env) :
    (tree.entrance env home).Blind ∧ ∀ id, (tree.handleAt env home id).Blind := by
  have closed := Eval.closed_blind home
  have haccessors := has_blind accessors
  have hcarries := carries_blind standard env.gateway
  exact ⟨Handle.blind_iff.2 (closed.entrance haccessors hcarries),
    fun id => Handle.blind_iff.2 (closed.handleAt haccessors hcarries id)⟩

end Tree

/-- Calls with and without records of a static method with a constant list: the same list comes out
and the method is called alike, while one record is retained on the one side and none on the
other. -/
theorem listCall_untraced :
    let call := (Tree.listCall.handleAt .echo 0 0).get .null
    let recorded : World := { context := { settings := { trace := true, keep := true } } }
    (call recorded).1 = (call {}).1 ∧ (call recorded).2.untraced = (call {}).2.untraced ∧
      (call recorded).2.context.trace.last = some 0 ∧ (call {}).2.context.trace.last = none := by
  have accessors : ∀ id, ∀ accessor ∈ Env.echo.accessor 0 id, accessor.Blind .echo := by
    intro id accessor h
    cases h
  have standard : Tree.listCall.all Body.isStandard = true := by decide
  have blind := (Tree.tracing_changes_nothing standard accessors).2 0
  obtain ⟨houtcome, hafter⟩ :=
    blind.get .null { context := { settings := { trace := true, keep := true } } } {} rfl
  exact ⟨houtcome, hafter, by decide +kernel, by decide +kernel⟩

end ObjectNavigation
