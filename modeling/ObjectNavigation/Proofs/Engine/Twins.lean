import ObjectNavigation.Proofs.Engine.Activation
import ObjectNavigation.Proofs.Engine.Tracing
import ObjectNavigation.Proofs.Script.Discreet
import ObjectNavigation.Proofs.Trace.Twin

/-!
Evaluation does not depend on which records it is given. A computation is discreet if from states
that differ in no more than the names of records it has one outcome and leads to states of that
kind, with the stacks as they were unless it is cut short. Whatever scripts do that take ids for
names, the nodes of their trees are discreet (`Workspace.discreet_enter`).
-/

namespace ObjectNavigation

/-- The states differ in no more than the names of records; the stacks are those of the records in
progress. -/
structure World.Twin (world world' : World) (stack stack' : List CallId) : Prop where
  rest : world.withTrace {} = world'.withTrace {}
  trace : world.context.trace.Twin world'.context.trace stack stack'

/-- What is left by computations that differ in no more than the names of records: one outcome, and
the same stacks if there is one. -/
structure Twins {α : Type} (result result' : Except Misuse (Except EvalError α) × World)
    (stack stack' : List CallId) : Prop where
  outcome : result.1 = result'.1
  after : ∃ left left', result.2.Twin result'.2 left left' ∧
    (result.1.isOk = true → left = stack ∧ left' = stack')

def Eval.Discreet {α : Type} (act : Eval α) : Prop :=
  ∀ world world' stack stack', world.Twin world' stack stack' →
    Twins (act world) (act world') stack stack'

structure Handle.Discreet (handle : Handle) : Prop where
  get : ∀ source, (handle.get source).Discreet
  set : ∀ target value, (handle.set target value).Discreet
  ask : ∀ question, (handle.ask question).Discreet

namespace World.Twin
variable {world world' : World} {stack stack' : List CallId}

theorem constants_eq (twin : world.Twin world' stack stack') : world.constants = world'.constants :=
  (congrArg World.constants twin.rest :)

theorem outside_eq (twin : world.Twin world' stack stack') : world.outside = world'.outside :=
  (congrArg World.outside twin.rest :)

theorem surface_eq (twin : world.Twin world' stack stack') : world.surface = world'.surface :=
  (congrArg World.surface twin.rest :)

theorem settings_eq (twin : world.Twin world' stack stack') :
    world.context.settings = world'.context.settings :=
  (congrArg (fun world : World => world.context.settings) twin.rest :)

theorem withOutside (twin : world.Twin world' stack stack') (outside : Outside) :
    ({ world with outside } : World).Twin { world' with outside } stack stack' :=
  ⟨(congrArg (fun world : World => { world with outside }) twin.rest :), twin.trace⟩

theorem withSurface (twin : world.Twin world' stack stack') (surface : Surface) :
    (world.withSurface surface).Twin (world'.withSurface surface) stack stack' :=
  ⟨(congrArg (World.withSurface · surface) twin.rest :), twin.trace⟩

theorem visit (twin : world.Twin world' stack stack') (node : NodeId) (object : Value) :
    (world.visit node object).Twin (world'.visit node object) stack stack' :=
  ⟨(congrArg (World.visit · node object) twin.rest :), twin.trace⟩

theorem withTrace (twin : world.Twin world' stack stack') {trace trace' : Trace}
    {left left' : List CallId} (h : trace.Twin trace' left left') :
    (world.withTrace trace).Twin (world'.withTrace trace') left left' :=
  ⟨twin.rest, h⟩

theorem position (twin : world.Twin world' stack stack') {π : Equiv.Perm CallId}
    (names : stack.map π = stack') :
    world'.context.position = world.context.position.renamed π := by
  obtain ⟨hstands, hstands'⟩ := twin.trace.stands
  have hnode : world.context.currentNode = world'.context.currentNode :=
    (congrArg (fun world : World => world.context.currentNode) twin.rest :)
  have hobject : world.context.currentObject = world'.context.currentObject :=
    (congrArg (fun world : World => world.context.currentObject) twin.rest :)
  simp only [Context.position, Position.renamed, Position.mk.injEq, hnode, hobject, and_true]
  refine ⟨?_, ?_, ?_⟩
  · rw [hstands.shows.depth, hstands'.shows.depth, twin.trace.length_eq]
  · rw [hstands.shows.current, hstands'.shows.current, ← names, List.head?_map]
  · rw [hstands.shows.root, hstands'.shows.root, ← names, List.getLast?_map]

end World.Twin

namespace Twins
variable {α β : Type} {stack stack' inner inner' : List CallId}

theorem of_twin {world world' : World} (twin : world.Twin world' stack stack')
    (outcome : Except Misuse (Except EvalError α)) :
    Twins (outcome, world) (outcome, world') stack stack' :=
  ⟨rfl, stack, stack', twin, fun _ => ⟨rfl, rfl⟩⟩

theorem andThen {act : Eval α} {world world' : World}
    (first : Twins (act world) (act world') inner inner') {next next' : Except EvalError α → Eval β}
    (follow : ∀ outcome {after after' : World}, after.Twin after' inner inner' →
      Twins (next outcome after) (next' outcome after') stack stack') :
    Twins (act.andThen next world) (act.andThen next' world') stack stack' := by
  obtain ⟨houtcome, left, left', htwin, hsame⟩ := first
  unfold Eval.andThen
  rcases hact : act world with ⟨outcome, after⟩
  rcases hact' : act world' with ⟨outcome', after'⟩
  rw [hact, hact'] at houtcome htwin
  rw [hact] at hsame
  cases houtcome
  cases outcome with
  | ok answer =>
    obtain ⟨rfl, rfl⟩ := hsame rfl
    exact follow answer htwin
  | error misuse => exact ⟨rfl, left, left', htwin, nofun⟩

end Twins

namespace Eval.Discreet
variable {α β : Type}

theorem finish (outcome : Except EvalError α) : (Eval.finish outcome).Discreet :=
  fun _ _ _ _ twin => .of_twin twin _

theorem misuse (misuse : Misuse) : (Eval.misuse misuse : Eval α).Discreet :=
  fun _ _ _ _ twin => .of_twin twin _

theorem andThen {act : Eval α} (first : act.Discreet) {next : Except EvalError α → Eval β}
    (hnext : ∀ outcome, (next outcome).Discreet) : (act.andThen next).Discreet :=
  fun _ _ _ _ twin =>
    (first _ _ _ _ twin).andThen fun outcome _ _ after => hnext outcome _ _ _ _ after

theorem invoke (gateway : Option Registry) (call : Invocation) :
    (ObjectNavigation.invoke gateway call).Discreet := by
  intro world world' stack stack' twin
  cases gateway with
  | none =>
    simp only [ObjectNavigation.invoke, World.heap, twin.outside_eq]
    exact .of_twin twin _
  | some registry =>
    simp only [ObjectNavigation.invoke, twin.outside_eq]
    exact .of_twin (twin.withOutside _) _

end Eval.Discreet

theorem Twins.run {C α : Type} {reach : C → Handle} (hreach : ∀ child, (reach child).Discreet)
    (gateway : Option Registry) {π : Equiv.Perm CallId} {script script' : Script C α}
    (h : script.Renames π script') {world world' : World} {stack stack' : List CallId}
    (twin : world.Twin world' stack stack') (names : stack.map π = stack') :
    Twins (script.run reach gateway world) (script'.run reach gateway world') stack stack' := by
  -- each step leaves the stacks as they were, so the script is told the same names all along
  induction h generalizing world world' with
  | done outcome => exact .of_twin twin _
  | get _ ih =>
    exact ((hreach _).get _ _ _ _ _ twin).andThen fun answer _ _ after => ih answer after
  | set _ ih =>
    exact ((hreach _).set _ _ _ _ _ _ twin).andThen fun answer _ _ after => ih answer after
  | ask _ ih =>
    exact ((hreach _).ask _ _ _ _ _ twin).andThen fun answer _ _ after => ih answer after
  | @invoke call _ _ _ ih =>
    have hcall := Eval.Discreet.invoke gateway call _ _ _ _ twin
    exact hcall.andThen fun answer _ _ after => ih answer after
  | look _ ih =>
    simp only [Script.run, ← twin.surface_eq]
    exact ih _ twin
  | locate _ ih =>
    simp only [Script.run, twin.position names]
    exact ih _ twin
  | alter _ ih =>
    simp only [Script.run, ← twin.surface_eq]
    exact ih (twin.withSurface _)

namespace Eval.Discreet
variable {α β : Type}

theorem run {C : Type} {reach : C → Handle} (hreach : ∀ child, (reach child).Discreet)
    (gateway : Option Registry) {script : Script C α} (h : script.Discreet) :
    (script.run reach gateway).Discreet := by
  intro world world' stack stack' twin
  obtain ⟨π, names⟩ := twin.trace.exists_perm
  exact .run hreach gateway (h π) twin names

theorem traced {act : Eval α} (h : act.Discreet) (node : NodeId) (kind : Kind) (source : Value)
    (setter : Bool) (result : α → Option Value) :
    (Engine.traced node kind source setter result act).Discreet := by
  intro world world' stack stack' twin
  obtain ⟨hstands, hstands'⟩ := twin.trace.stands
  have hcreates := hstands.sound.create node kind source setter
  have hcreates' := hstands'.sound.create node kind source setter
  unfold Engine.traced
  rw [twin.settings_eq]
  split
  next =>
    have hbegun := h _ _ _ _ (twin.withTrace (twin.trace.begin hcreates hcreates'))
    refine hbegun.andThen fun outcome after after' hafter => ?_
    rw [hafter.settings_eq]
    exact .of_twin (hafter.withTrace (hafter.trace.complete _ _)) _
  next => exact h _ _ _ _ twin

theorem visiting {act : Eval α} (h : act.Discreet) (node : NodeId) (object : Value) :
    (Engine.visiting node object act).Discreet :=
  fun _ _ _ _ twin => h _ _ _ _ (twin.visit node object)

end Eval.Discreet

/-! ### Trees -/

theorem Eval.closed_discreet (home : TreeId) : Eval.Closed home fun _ act => act.Discreet where
  finish := .finish
  misuse := .misuse
  andThen first hnext := first.andThen hnext
  choose h world world' stack stack' twin := by
    obtain ⟨chosen, hchosen, hact⟩ := h world.constants
    rw [hact world rfl, hact world' twin.constants_eq.symm]
    exact hchosen _ _ _ _ twin
  check h id _ _ _ _ twin := h _ _ _ _ ⟨(congrArg (fun world : World =>
    { world with constants := world.constants.check home id }) twin.rest :), twin.trace⟩
  keep h id value _ _ _ _ twin := h _ _ _ _ ⟨(congrArg (fun world : World =>
    { world with constants := world.constants.keep home id value }) twin.rest :), twin.trace⟩
  traced h := h.traced
  visiting h := h.visiting

theorem Handle.discreet_iff {handle : Handle} :
    handle.Discreet ↔ handle.Has fun _ act => act.Discreet :=
  ⟨fun h => ⟨h.get, h.set, h.ask⟩, fun h => ⟨h.get, h.set, h.ask⟩⟩

theorem Tree.Discreet.carries {tree : Tree} (discreet : tree.Discreet)
    (gateway : Option Registry) : tree.Carries (fun _ act => act.Discreet) gateway := by
  rintro id ⟨body, slots⟩ hsub
  have hbody := discreet.sub hsub
  exact {
    read := fun hreach source => .run (fun index => Handle.discreet_iff.2 (hreach index)) gateway
      (hbody.read _ source)
    assign := fun hreach target value => .run
      (fun index => Handle.discreet_iff.2 (hreach index)) gateway (hbody.assign _ target value)
    ask := fun hreach question => .run (fun index => Handle.discreet_iff.2 (hreach index)) gateway
      (hbody.ask _ question) }

namespace Workspace

/-- All bodies and accessors take the ids of records for names. -/
structure Discreet (workspace : Workspace) : Prop where
  trees : ∀ tree ∈ workspace.trees, tree.Discreet
  accessors : ∀ entry ∈ workspace.accessors, entry.2.Discreet

variable {workspace : Workspace}

theorem discreet_enter (discreet : workspace.Discreet) (gateway : Option Registry) (depth : Nat)
    (entry : Entry) : (workspace.enter gateway depth entry).Discreet := by
  refine Handle.discreet_iff.2 (Eval.Closed.enter Eval.closed_discreet
    (fun tree htree => (discreet.trees tree htree).carries gateway) ?_ depth entry)
  intro attached hattached env henter
  have hreach := fun entry => Handle.discreet_iff.2 (henter entry)
  have hscripts := discreet.accessors attached hattached
  exact ⟨fun source => .run hreach _ (hscripts.read source),
    fun target value => .run hreach _ (hscripts.assign target value)⟩

end Workspace
end ObjectNavigation
