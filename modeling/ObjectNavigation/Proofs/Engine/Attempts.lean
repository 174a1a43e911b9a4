import ObjectNavigation.Proofs.Engine.Activation
import ObjectNavigation.Proofs.Engine.Uncached
import ObjectNavigation.Proofs.Script.Candid

/-!
Attempted method calls. Beside every computation of a tree without accessors stands the list of the
calls through the gateway that it attempts (`Tree.attempts`), each in the state in which it is made;
what comes of it is what the gateway does there. For a tree of the library the list explains the
computation: the journal grows by what the calls enter in it, in order, a call that fails is the
last one and its failure is the outcome, and no other outcome is the failure of a method
(`Tree.explained`).
-/

namespace ObjectNavigation

/-- A call through a gateway in the state in which it is made. -/
structure Attempt where
  call : Invocation
  before : World

namespace Attempt
variable {gateway : Option Registry}

def result (gateway : Option Registry) (attempt : Attempt) :
    Except Misuse (Except EvalError Value) × World :=
  invoke gateway attempt.call attempt.before

def events (gateway : Option Registry) (attempt : Attempt) : List Event :=
  (attempt.result gateway).2.outside.journal.drop attempt.before.outside.journal.length

theorem events_eq {attempt : Attempt} {events : List Event}
    (h : (attempt.result gateway).2.outside.journal = attempt.before.outside.journal ++ events) :
    attempt.events gateway = events := by
  rw [Attempt.events, h, List.drop_left]

/-- All calls succeed and the result is no failure of a method, or the last call fails and what
comes of it is the result. -/
def Ends {α : Type} (gateway : Option Registry) :
    List Attempt → Except Misuse (Except EvalError α) → Prop
  | [], result => ∀ failure, result ≠ .ok (.error (.method failure))
  | attempt :: rest, result =>
    match (attempt.result gateway).1 with
    | .ok (.ok _) => Ends gateway rest result
    | .ok (.error error) => rest = [] ∧ result = .ok (.error error)
    | .error misuse => rest = [] ∧ result = .error misuse

section Ends
variable {α β : Type} {result : Except Misuse (Except EvalError α)}
  {result' : Except Misuse (Except EvalError β)} {left right : List Attempt}

theorem Ends.append {value : α}
    (h : Ends gateway left (.ok (.ok value) : Except Misuse (Except EvalError α)))
    (hright : Ends gateway right result') : Ends gateway (left ++ right) result' := by
  induction left with
  | nil => exact hright
  | cons attempt rest ih =>
    simp only [List.cons_append, Ends] at h ⊢
    rcases hresult : (attempt.result gateway).1 with misuse | error | value
    · rw [hresult] at h
      cases h.2
    · rw [hresult] at h
      cases h.2
    · rw [hresult] at h
      exact ih h

theorem Ends.retype (h : Ends gateway left result)
    (herror : ∀ error, result = .ok (.error error) ↔ result' = .ok (.error error))
    (hmisuse : ∀ misuse, result = .error misuse ↔ result' = .error misuse) :
    Ends gateway left result' := by
  induction left with
  | nil => exact fun failure heq => h failure ((herror _).2 heq)
  | cons attempt rest ih =>
    simp only [Ends] at h ⊢
    rcases hresult : (attempt.result gateway).1 with misuse | error | value
    · rw [hresult] at h
      exact ⟨h.1, (hmisuse misuse).1 h.2⟩
    · rw [hresult] at h
      exact ⟨h.1, (herror error).1 h.2⟩
    · rw [hresult] at h
      exact ih h

end Ends
end Attempt

theorem invoke_journal (gateway : Option Registry) (call : Invocation) (world : World) :
    world.outside.journal <+: (invoke gateway call world).2.outside.journal := by
  cases gateway with
  | none => exact List.prefix_rfl
  | some registry =>
    simp only [invoke, Registry.call]
    cases registry.resolve world.outside.heap call with
    | error cause => exact List.prefix_rfl
    | ok method => exact List.prefix_append _ _

/-! ### The calls that computations attempt -/

structure Attempts where
  get : Value → World → List Attempt := fun _ _ => []
  set : Value → Value → World → List Attempt := fun _ _ _ => []
  ask : Question → World → List Attempt := fun _ _ => []

/-- What is attempted by a computation and then by what goes on from its outcome. -/
def Eval.attemptsThen {α : Type} (act : Eval α) (attempts : World → List Attempt)
    (next : Except EvalError α → World → List Attempt) (world : World) : List Attempt :=
  attempts world ++
    match act world with
    | (.ok outcome, after) => next outcome after
    | (.error _, _) => []

def Script.attempts {C α : Type} (reach : C → Handle) (inner : C → Attempts)
    (gateway : Option Registry) : Script C α → World → List Attempt
  | .done _ => fun _ => []
  | .get child source next =>
    ((reach child).get source).attemptsThen ((inner child).get source) fun answer =>
      (next answer).attempts reach inner gateway
  | .set child target value next =>
    ((reach child).set target value).attemptsThen ((inner child).set target value) fun answer =>
      (next answer).attempts reach inner gateway
  | .ask child question next =>
    ((reach child).ask question).attemptsThen ((inner child).ask question) fun answer =>
      (next answer).attempts reach inner gateway
  | .invoke call next =>
    (ObjectNavigation.invoke gateway call).attemptsThen (fun world => [⟨call, world⟩]) fun answer =>
      (next answer).attempts reach inner gateway
  | .look next => fun world => (next world.surface).attempts reach inner gateway world
  | .locate next => fun world => (next world.context.position).attempts reach inner gateway world
  | .alter change next => fun world =>
    next.attempts reach inner gateway (world.withSurface (change world.surface))

namespace Engine

/-- What a get attempts that may have a value kept for it. -/
def keptAttempts (tree : TreeId) (node : NodeId) (attempts : World → List Attempt)
    (world : World) : List Attempt :=
  match (world.constants.cell tree node).value with
  | some _ => []
  | none => attempts world

def cachedAttempts (tree : TreeId) (node : NodeId) (constant : Eval Bool)
    (asking attempts : World → List Attempt) (world : World) : List Attempt :=
  if (world.constants.cell tree node).checked then keptAttempts tree node attempts world
  else
    constant.attemptsThen asking (fun
        | .error _ => fun _ => []
        | .ok true => attempts
        | .ok false => keptAttempts tree node attempts)
      { world with constants := world.constants.check tree node }

def attempts (env : Env) (tree : TreeId) (id : NodeId) (body : Body) (seat : Seat)
    (child : Nat → Option Handle) (inner : Nat → Attempts) : Attempts where
  get source world :=
    let asking := (body.ask seat .constant).attempts (reach body.kind child) inner env.gateway
    let reading := (body.read seat source).attempts (reach body.kind child) inner env.gateway
    cachedAttempts tree id ((body.ask seat .constant).run (reach body.kind child) env.gateway)
      asking reading ((Watched.entered id body.kind source false world).visit id source)
  set target value world :=
    (body.assign seat target value).attempts (reach body.kind child) inner env.gateway
      ((Watched.entered id body.kind target true world).visit id target)
  ask question := (body.ask seat question).attempts (reach body.kind child) inner env.gateway

end Engine

namespace Tree

mutual

/-- What the root of `tree` attempts, as the node `id` of the tree named `home`. -/
def attempts (env : Env) (home : TreeId) (id : NodeId) : Tree → Attempts
  | .node body slots =>
    Engine.attempts env home id body (seat (.node body slots)) (child env home (id + 1) slots)
      (childAttempts env home (id + 1) slots)

def childAttempts (env : Env) (home : TreeId) (next : NodeId) :
    List (Option Tree) → Nat → Attempts
  | [], _ => {}
  | none :: _, 0 => {}
  | some first :: _, 0 => first.attempts env home next
  | none :: rest, index + 1 => childAttempts env home next rest index
  | some first :: rest, index + 1 => childAttempts env home (next + first.size) rest index

end

def attemptsAt (env : Env) (home : TreeId) (tree : Tree) (id : NodeId) : Attempts :=
  match tree.lookUp id with
  | .ok place => place.subtree.attempts env home id
  | .error _ => {}

theorem childAttempts_eq (env : Env) (home : TreeId) (next : NodeId) (slots : List (Option Tree))
    (index : Nat) :
    childAttempts env home next slots index =
      ((child? next slots index).map fun entry => entry.2.attempts env home entry.1).getD {} :=
  pick_eq (childAttempts env home)
    (fun found => (found.map fun entry => entry.2.attempts env home entry.1).getD {})
    (fun _ _ => childAttempts.eq_1 ..) (fun _ _ => rfl) (fun _ _ _ => rfl) (fun _ _ _ => rfl)
    (fun _ _ _ _ => rfl) next slots index

end Tree

/-! ### What they explain -/

/-- The attempted calls account for the journal and for the outcome. -/
structure Explains {α : Type} (gateway : Option Registry) (before : List Event)
    (attempts : List Attempt) (result : Except Misuse (Except EvalError α) × World) : Prop where
  undotted : ∀ attempt ∈ attempts, isUndotted attempt.call.name = true
  journal : result.2.outside.journal = before ++ attempts.flatMap (Attempt.events gateway)
  ends : Attempt.Ends gateway attempts result.1

/-- The computation attempts these calls in every state, and they explain it. -/
def Eval.Explained {α : Type} (gateway : Option Registry) (act : Eval α)
    (attempts : World → List Attempt) : Prop :=
  ∀ world, Explains gateway world.outside.journal (attempts world) (act world)

structure Handle.Explained (gateway : Option Registry) (handle : Handle) (attempts : Attempts) :
    Prop where
  get : ∀ source, (handle.get source).Explained gateway (attempts.get source)
  set : ∀ target value, (handle.set target value).Explained gateway (attempts.set target value)
  ask : ∀ question, (handle.ask question).Explained gateway (attempts.ask question)

namespace Eval.Explained
variable {α β : Type} {gateway : Option Registry} {attempts : World → List Attempt}

theorem silent {act : Eval α} (unfailing : ∀ world failure,
      (act world).1 ≠ .ok (.error (.method failure)))
    (journal : ∀ world, (act world).2.outside.journal = world.outside.journal) :
    act.Explained gateway fun _ => [] := by
  intro world
  refine ⟨by simp, ?_, unfailing world⟩
  rw [journal, List.flatMap_nil, List.append_nil]

theorem finish {outcome : Except EvalError α} (h : Unfailing outcome) :
    (Eval.finish outcome).Explained gateway fun _ => [] :=
  silent (fun _ failure heq => h failure (Except.ok.inj heq)) fun _ => rfl

theorem misuse (misuse : Misuse) :
    (Eval.misuse misuse : Eval α).Explained gateway fun _ => [] :=
  silent (fun _ _ => nofun) fun _ => rfl

/-- What passes failures on goes on with nothing once a call has failed. -/
theorem andThen {act : Eval α} (first : act.Explained gateway attempts)
    {next : Except EvalError α → Eval β} {follow : Except EvalError α → World → List Attempt}
    (passes : ∀ error, next (.error error) = .finish (.error error) ∧
      follow (.error error) = fun _ => [])
    (hnext : ∀ value, (next (.ok value)).Explained gateway (follow (.ok value))) :
    (act.andThen next).Explained gateway (act.attemptsThen attempts follow) := by
  intro world
  obtain ⟨undotted, journal, ends⟩ := first world
  unfold Eval.andThen Eval.attemptsThen
  rcases hact : act world with ⟨result, after⟩
  rw [hact] at journal ends
  rcases result with fault | error | value
  · simp only [List.append_nil]
    exact ⟨undotted, journal, ends.retype (by simp) (by simp)⟩
  · obtain ⟨hfinish, hnone⟩ := passes error
    simp only [hfinish, hnone, List.append_nil]
    exact ⟨undotted, journal, ends.retype (by simp [Eval.finish]) (by simp [Eval.finish])⟩
  · obtain ⟨hundotted, hjournal, hends⟩ := hnext value after
    refine ⟨List.forall_mem_append.2 ⟨undotted, hundotted⟩, ?_, ends.append hends⟩
    rw [hjournal, journal, List.flatMap_append, List.append_assoc]

theorem invoke {call : Invocation} (undotted : isUndotted call.name = true) :
    (ObjectNavigation.invoke gateway call).Explained gateway fun world => [⟨call, world⟩] := by
  intro world
  refine ⟨List.forall_mem_singleton.2 undotted, ?_, ?_⟩
  · rw [List.flatMap_singleton]
    exact (List.prefix_iff_eq_append.1 (invoke_journal gateway call world)).symm
  · simp only [Attempt.Ends, Attempt.result]
    rcases (ObjectNavigation.invoke gateway call world).1 with misuse | error | value
    · exact ⟨trivial, rfl⟩
    · exact ⟨trivial, rfl⟩
    · exact nofun

theorem run {C : Type} {reach : C → Handle} {inner : C → Attempts}
    (hreach : ∀ child, (reach child).Explained gateway (inner child)) {script : Script C α}
    (candid : script.Candid) :
    (script.run reach gateway).Explained gateway (script.attempts reach inner gateway) := by
  induction candid with
  | done h => exact finish h
  | get passes _ ih =>
    refine andThen ((hreach _).get _) (fun error => ?_) ih
    rw [passes]
    exact ⟨rfl, rfl⟩
  | set passes _ ih =>
    refine andThen ((hreach _).set _ _) (fun error => ?_) ih
    rw [passes]
    exact ⟨rfl, rfl⟩
  | ask passes _ ih =>
    refine andThen ((hreach _).ask _) (fun error => ?_) ih
    rw [passes]
    exact ⟨rfl, rfl⟩
  | invoke undotted passes _ ih =>
    refine andThen (invoke undotted) (fun error => ?_) ih
    rw [passes]
    exact ⟨rfl, rfl⟩
  | look _ ih => exact fun world => ih world.surface world
  | alter journal _ ih =>
    intro world
    obtain ⟨hundotted, hjournal, hends⟩ := ih (world.withSurface _)
    exact ⟨hundotted, hjournal.trans (congrArg (· ++ _) (journal world.surface)), hends⟩

/-! ### The layers around a body -/

theorem traced {act : Eval α} (h : act.Explained gateway attempts) (node : NodeId) (kind : Kind)
    (source : Value) (setter : Bool) (result : α → Option Value) :
    (Engine.traced node kind source setter result act).Explained gateway fun world =>
      attempts (Watched.entered node kind source setter world) := by
  intro world
  obtain ⟨begun, hbegun⟩ := Watched.entered_eq_withTrace node kind source setter world
  obtain ⟨ended, hended⟩ := Watched.traced_eq_entered node kind source setter result act world
  obtain ⟨undotted, journal, ends⟩ := h (Watched.entered node kind source setter world)
  have hjournal : (Watched.entered node kind source setter world).outside.journal =
      world.outside.journal := by
    rw [hbegun]
    rfl
  rw [hjournal] at journal
  rw [hended]
  exact ⟨undotted, journal, ends⟩

theorem visiting {act : Eval α} (h : act.Explained gateway attempts) (node : NodeId)
    (object : Value) :
    (Engine.visiting node object act).Explained gateway fun world =>
      attempts (world.visit node object) := by
  intro world
  obtain ⟨undotted, journal, ends⟩ := h (world.visit node object)
  exact ⟨undotted, journal, ends⟩

theorem kept {act : Eval Value} (h : act.Explained gateway attempts) (tree : TreeId)
    (node : NodeId) :
    (Engine.kept tree node act).Explained gateway (Engine.keptAttempts tree node attempts) := by
  intro world
  unfold Engine.kept Engine.keptAttempts
  cases (world.constants.cell tree node).value with
  | some value => exact finish (.ok value) world
  | none => exact h world

theorem keeping {act : Eval Value} (h : act.Explained gateway attempts) (tree : TreeId)
    (node : NodeId) : (Engine.keeping tree node act).Explained gateway attempts := by
  have hkeep : (Engine.keeping tree node act).Explained gateway
      (act.attemptsThen attempts fun _ _ => []) :=
    andThen h (fun error => ⟨rfl, rfl⟩) fun value => silent (fun _ _ => nofun) fun _ => rfl
  have hsame : act.attemptsThen attempts (fun _ _ => []) = attempts := by
    funext world
    unfold Eval.attemptsThen
    split <;> exact List.append_nil _
  rwa [hsame] at hkeep

theorem cached {constant : Eval Bool} {asking : World → List Attempt}
    (hconstant : constant.Explained gateway asking) {act : Eval Value}
    (h : act.Explained gateway attempts) (tree : TreeId) (node : NodeId) :
    (Engine.cached tree node constant act).Explained gateway
      (Engine.cachedAttempts tree node constant asking attempts) := by
  intro world
  unfold Engine.cached Engine.cachedAttempts
  split
  next => exact h.kept tree node world
  next =>
    refine andThen hconstant (fun error => ?_) (fun value => ?_)
      { world with constants := world.constants.check tree node }
    · exact ⟨rfl, rfl⟩
    · cases value with
      | true => exact h.keeping tree node
      | false => exact h.kept tree node

end Eval.Explained

/-! ### Trees -/

theorem Engine.explained_node {env : Env} {home : TreeId} (plain : env.Plain home) (id : NodeId)
    {body : Body} (standard : body.isStandard = true) (undotted : body.isUndotted = true)
    (seat : Seat) {child : Nat → Option Handle} {inner : Nat → Attempts}
    (hreach : ∀ index, (reach body.kind child index).Explained env.gateway (inner index)) :
    (node env home id body seat child).Explained env.gateway
      (attempts env home id body seat child inner) := by
  have hask : ∀ question, ((body.ask seat question).run (reach body.kind child)
      env.gateway).Explained env.gateway
        ((body.ask seat question).attempts (reach body.kind child) inner env.gateway) :=
    fun question => .run hreach (Body.candid_ask standard seat question)
  constructor
  · intro source
    have hread := Eval.Explained.run hreach (Body.candid_read standard undotted seat source)
    simp only [node, substitute?_eq_none plain]
    exact (((hask .constant).cached hread home id).visiting id source).traced id body.kind source
      false some
  · intro target value
    have hassign := Eval.Explained.run hreach (Body.candid_assign standard seat target value)
    simp only [node, substitute?_eq_none plain]
    exact (hassign.visiting id target).traced id body.kind target true fun _ => none
  · exact hask

namespace Tree
variable {env : Env} {home : TreeId}

theorem explained_handle (plain : env.Plain home) (id : NodeId) {tree : Tree}
    (standard : tree.all Body.isStandard = true) (undotted : tree.all Body.isUndotted = true) :
    (tree.handle env home id).Explained env.gateway (tree.attempts env home id) := by
  induction id, tree using child_induction with
  | node id body slots ih =>
    rw [all, Bool.and_eq_true] at standard undotted
    refine Engine.explained_node plain id standard.1 undotted.1 _ fun index => ?_
    rw [Engine.reach, child_eq, childAttempts_eq]
    cases hentry : child? (id + 1) slots index with
    | none =>
      have hmissing : ∀ {α : Type},
          Unfailing (.error (.missingChild body.kind index) : Except _ α) := by
        intro α failure heq
        cases heq
      exact ⟨fun _ => .finish hmissing, fun _ _ => .finish hmissing, fun _ => .finish (.ok false)⟩
    | some entry =>
      exact ih index entry hentry (all_child standard.2 hentry) (all_child undotted.2 hentry)

/-- What a node of a tree of the library attempts explains its gets, sets and questions. -/
theorem explained (plain : env.Plain home) {tree : Tree}
    (standard : tree.all Body.isStandard = true) (undotted : tree.all Body.isUndotted = true)
    (id : NodeId) :
    (tree.handleAt env home id).Explained env.gateway (tree.attemptsAt env home id) := by
  unfold handleAt attemptsAt
  cases hplace : tree.lookUp id with
  | error misuse => exact ⟨fun _ => .misuse _, fun _ _ => .misuse _, fun _ => .misuse _⟩
  | ok place =>
    have hsub := Sub.of_lookUp hplace
    exact explained_handle plain id (hsub.all standard) (hsub.all undotted)

end Tree
end ObjectNavigation
