import ObjectNavigation.Proofs.Engine.Attempts

/-!
The call that a node makes itself. If a get of a method node succeeds then the last call that it
attempts is the one of the node, all others are attempted in gets of its children, and the value
and the state that this call gives are those of the get (`Tree.answers`).
-/

namespace ObjectNavigation

/-- The call that a body makes for a source, once its operands have these values. -/
def Body.invocation? (source : Value) (values : List Value) : Body → Option Invocation
  | method name => some (.onTarget source name values)
  | staticMethod typeName name => some (.onType typeName name values)
  | _ => none

/-- If the get succeeds, a call of the body is the last one attempted and gives what the get gives.
All others are of the kind of those that operands attempt. -/
def Attempt.Answers (gateway : Option Registry) (body : Body) (source : Value)
    (ofOperand : Attempt → Prop) (attempts : List Attempt)
    (result : Except Misuse (Except EvalError Value) × World) : Prop :=
  ∀ value, result.1 = .ok (.ok value) →
    ∃ front last values, attempts = front ++ [last] ∧ (∀ attempt ∈ front, ofOperand attempt) ∧
      body.invocation? source values = some last.call ∧
      (last.result gateway).1 = .ok (.ok value) ∧
      result.2.outside = (last.result gateway).2.outside

section Answers
variable {gateway : Option Registry} {body : Body} {source : Value} {ofOperand : Attempt → Prop}
  {attempts : List Attempt} {result result' : Except Misuse (Except EvalError Value) × World}

theorem Attempt.Answers.imp {other : Attempt → Prop}
    (h : Answers gateway body source ofOperand attempts result)
    (himp : ∀ attempt, ofOperand attempt → other attempt) :
    Answers gateway body source other attempts result := by
  intro value hvalue
  obtain ⟨front, last, values, hattempts, hfront, hlast⟩ := h value hvalue
  exact ⟨front, last, values, hattempts, fun attempt h => himp attempt (hfront attempt h), hlast⟩

theorem Attempt.Answers.congr (h : Answers gateway body source ofOperand attempts result)
    (houtcome : result'.1 = result.1) (houtside : result'.2.outside = result.2.outside) :
    Answers gateway body source ofOperand attempts result' := by
  intro value hvalue
  rw [houtcome] at hvalue
  rw [houtside]
  exact h value hvalue

end Answers

/-! ### Scripts -/

theorem Eval.attemptsThen_andThen {α β : Type} (act : Eval α) (f : Except EvalError α → Eval β)
    (attempts : World → List Attempt) (follow : Except EvalError α → World → List Attempt)
    (next : Except EvalError β → World → List Attempt) :
    (act.andThen f).attemptsThen (act.attemptsThen attempts follow) next =
      act.attemptsThen attempts fun outcome => (f outcome).attemptsThen (follow outcome) next := by
  funext world
  simp only [attemptsThen, andThen]
  rcases act world with ⟨misuse | outcome, after⟩
  · simp only [List.append_nil]
  · simp only [List.append_assoc]

section Script
variable {C α β : Type} {reach : C → Handle} {inner : C → Attempts} {gateway : Option Registry}

theorem Script.attempts_andThen (script : Script C α) (next : Except EvalError α → Script C β) :
    (script.andThen next).attempts reach inner gateway =
      (script.run reach gateway).attemptsThen (script.attempts reach inner gateway) fun outcome =>
        (next outcome).attempts reach inner gateway := by
  induction script with
  | done outcome => rfl
  | get child source rest ih =>
    simp only [andThen, attempts, run, Eval.attemptsThen_andThen, ih]
  | set child target value rest ih =>
    simp only [andThen, attempts, run, Eval.attemptsThen_andThen, ih]
  | ask child question rest ih =>
    simp only [andThen, attempts, run, Eval.attemptsThen_andThen, ih]
  | invoke call rest ih => simp only [andThen, attempts, run, Eval.attemptsThen_andThen, ih]
  | look rest ih =>
    simp only [andThen, attempts, ih]
    rfl
  | locate rest ih =>
    simp only [andThen, attempts, ih]
    rfl
  | alter change rest ih =>
    simp only [andThen, attempts, ih]
    rfl

theorem Script.attempts_getValue (child : C) (source : Value) :
    (getValue child source).attempts reach inner gateway = (inner child).get source := by
  funext world
  simp only [getValue, attempts, Eval.attemptsThen]
  split <;> exact List.append_nil _

theorem Script.attempts_call (call : Invocation) (world : World) :
    (Script.call call : Script C Value).attempts reach inner gateway world = [⟨call, world⟩] := by
  simp only [Script.call, attempts, Eval.attemptsThen]
  split <;> rfl

end Script

namespace Body
variable {reach : Nat → Handle} {inner : Nat → Attempts} {gateway : Option Registry}
  {seat : Seat} {source : Value} {world : World}

/-- What operands attempt, one of the children attempts. -/
theorem mem_attempts_mapM {indices : List Nat} {attempt : Attempt}
    (h : attempt ∈ (indices.mapM (Script.getValue · source)).attempts reach inner gateway world) :
    ∃ index before, attempt ∈ (inner index).get source before := by
  induction indices generalizing world with
  | nil => cases h
  | cons index rest ih =>
    rw [List.mapM_cons, Script.bind_eq_andThen, Script.attempts_andThen, Eval.attemptsThen,
      Script.attempts_getValue, List.mem_append] at h
    rcases h with hfirst | hrest
    · exact ⟨index, world, hfirst⟩
    · split at hrest
      next outcome middle _ =>
        cases outcome with
        | error error => cases hrest
        | ok value =>
          rw [Script.onOk, Script.bind_eq_andThen, Script.attempts_andThen, Eval.attemptsThen,
            List.mem_append] at hrest
          rcases hrest with hrest | hdone
          · exact ih hrest
          · split at hdone
            next outcome _ _ => cases outcome <;> cases hdone
            next => cases hdone
      next => cases hrest

theorem exists_invocation {body : Body} (calls : body.callee?.isSome = true) (seat : Seat)
    (source : Value) :
    ∃ invocation : List Value → Invocation,
      (∀ values, body.invocation? source values = some (invocation values)) ∧
        body.read seat source =
          arguments seat >>= fun values => Script.call (invocation values) := by
  cases body with
  | method name => exact ⟨.onTarget source name, fun _ => rfl, rfl⟩
  | staticMethod typeName name => exact ⟨.onType typeName name, fun _ => rfl, rfl⟩
  | _ => cases calls

theorem answers_read {body : Body} (calls : body.callee?.isSome = true) :
    Attempt.Answers gateway body source
      (fun attempt => ∃ index before,
        attempt ∈ (inner index).get world.context.settings.root before)
      ((body.read seat source).attempts reach inner gateway world)
      ((body.read seat source).run reach gateway world) := by
  obtain ⟨invocation, hinvocation, hread⟩ := exists_invocation calls seat source
  intro value hvalue
  rw [hread, Script.bind_eq_andThen, Script.run_andThen, Eval.andThen] at hvalue ⊢
  rw [Script.attempts_andThen, Eval.attemptsThen]
  rcases harguments : (arguments seat).run reach gateway world with
    ⟨misuse | error | values, middle⟩
  · rw [harguments] at hvalue
    cases hvalue
  · rw [harguments] at hvalue
    cases hvalue
  · have hcall : (Script.call (invocation values)).run reach gateway =
        invoke gateway (invocation values) := Eval.andThen_finish _
    rw [harguments] at hvalue
    simp only [Script.onOk, hcall, Script.attempts_call] at hvalue ⊢
    exact ⟨_, ⟨invocation values, middle⟩, values, rfl, fun _ => mem_attempts_mapM,
      hinvocation values, hvalue, rfl⟩

end Body

/-! ### Nodes -/

namespace Engine
variable {tree : TreeId} {id : NodeId} {world : World}

/-- A node that says that it is not constant, and for which nothing is kept, attempts what its body
attempts. -/
theorem exists_begun {constant : Eval Bool}
    (hconstant : ∀ world, constant world = (.ok (.ok false), world)) (act : Eval Value)
    (attempts : World → List Attempt) (hnone : (world.constants.cell tree id).value = none) :
    ∃ begun : World, begun.surface = world.surface ∧
      cached tree id constant act world = act begun ∧
      cachedAttempts tree id constant (fun _ => []) attempts world = attempts begun := by
  rw [cached, cachedAttempts]
  split
  next => exact ⟨world, rfl, by rw [kept, hnone], by rw [keptAttempts, hnone]⟩
  next =>
    have hcheck : ((world.constants.check tree id).cell tree id).value = none := by
      rw [Constants.check, Constants.cell_put, if_pos ⟨rfl, rfl⟩]
      exact hnone
    refine ⟨{ world with constants := world.constants.check tree id }, rfl, ?_, ?_⟩
    · simp only [Eval.andThen, hconstant, kept, hcheck]
    · simp only [Eval.attemptsThen, hconstant, keptAttempts, hcheck, List.nil_append]

theorem answers_node (env : Env) {body : Body} (calls : body.callee?.isSome = true) (seat : Seat)
    (child : Nat → Option Handle) (inner : Nat → Attempts)
    (hnone : (world.constants.cell tree id).value = none) (source : Value) :
    Attempt.Answers env.gateway body source
      (fun attempt => ∃ index before,
        attempt ∈ (inner index).get world.context.settings.root before)
      ((attempts env tree id body seat child inner).get source world)
      ((node env tree id body seat child).get source world) := by
  obtain ⟨hsubstitute, hasking, hconstant⟩ : substitute? env tree id body = none ∧
      ((body.ask seat .constant).attempts (reach body.kind child) inner env.gateway =
        fun _ => []) ∧
      ∀ world, (body.ask seat .constant).run (reach body.kind child) env.gateway world =
        (.ok (.ok false), world) := by
    cases body with
    | method | staticMethod => exact ⟨rfl, rfl, fun _ => rfl⟩
    | _ => cases calls
  simp only [node, attempts, hsubstitute, hasking]
  obtain ⟨entered, hentered⟩ := Watched.entered_eq_withTrace id body.kind source false world
  obtain ⟨ended, hended⟩ := Watched.traced_eq_entered id body.kind source false some
    (visiting id source (cached tree id
      ((body.ask seat .constant).run (reach body.kind child) env.gateway)
      ((body.read seat source).run (reach body.kind child) env.gateway))) world
  rw [hended, hentered, visiting]
  obtain ⟨begun, hbegun, hcached, hattempts⟩ := exists_begun hconstant
    ((body.read seat source).run (reach body.kind child) env.gateway)
    ((body.read seat source).attempts (reach body.kind child) inner env.gateway)
    (show (((world.withTrace entered).visit id source).constants.cell tree id).value = none
      from hnone)
  rw [hcached, hattempts]
  have hroot : begun.context.settings.root = world.context.settings.root :=
    congrArg (fun surface => surface.settings.root) hbegun
  rw [← hroot]
  exact (Body.answers_read calls).congr rfl rfl

end Engine

namespace Tree
variable {env : Env} {home : TreeId} {tree : Tree} {id : NodeId} {body : Body}
  {slots : List (Option Tree)}

/-- The call is attempted in a get of one of the children of the node `id`. -/
def OfChildren (env : Env) (home : TreeId) (id : NodeId) (slots : List (Option Tree))
    (source : Value) (attempt : Attempt) : Prop :=
  ∃ index, ∃ entry ∈ child? (id + 1) slots index, ∃ before,
    attempt ∈ (entry.2.attempts env home entry.1).get source before

/-- A get of a method node, for which nothing is kept, calls the method once its arguments, all got
against the root, have values. -/
theorem answers (hsub : tree.Sub id (.node body slots)) (calls : body.callee?.isSome = true)
    {world : World} (hnone : (world.constants.cell home id).value = none) (source : Value) :
    Attempt.Answers env.gateway body source
      (OfChildren env home id slots world.context.settings.root)
      ((tree.attemptsAt env home id).get source world)
      ((tree.handleAt env home id).get source world) := by
  unfold handleAt attemptsAt
  cases hplace : tree.lookUp id with
  | error misuse => exact fun _ => nofun
  | ok place =>
    dsimp only
    rw [(Sub.of_lookUp hplace).unique hsub]
    refine (Engine.answers_node env calls (seat (.node body slots)) (child env home (id + 1) slots)
      (childAttempts env home (id + 1) slots) hnone source).imp fun attempt => ?_
    rintro ⟨index, before, hinner⟩
    rw [childAttempts_eq] at hinner
    cases hentry : child? (id + 1) slots index with
    | none =>
      rw [hentry] at hinner
      cases hinner
    | some entry =>
      rw [hentry] at hinner
      exact ⟨index, entry, hentry, before, hinner⟩

end Tree
end ObjectNavigation
