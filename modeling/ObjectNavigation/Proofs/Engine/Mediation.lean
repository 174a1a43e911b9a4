import ObjectNavigation.Proofs.Engine.Answers
import ObjectNavigation.Proofs.Engine.Caching

/-!
Complete mediation of method calls. A call through a registry runs no method but the one that was
registered last for its type and name in the table of its form, and runs it only if the policy,
where there is one, accepts the permission for exactly that member (`Attempt.Mediated`). So it is
with all calls that a tree of the library attempts, and nothing else enters the journal
(`Tree.mediated`).
-/

namespace ObjectNavigation

namespace Attempt
variable {gateway : Option Registry} {history : List Registration}
  {decision? : Option (Permission → Except String Unit)} {attempt : Attempt}

def member (attempt : Attempt) : String :=
  memberName (attempt.call.typeName attempt.before.heap) attempt.call.name

/-- What was registered last for what the call names. -/
def registered? (history : List Registration) (attempt : Attempt) : Option Method :=
  Registration.latest? history attempt.call.isStatic (attempt.call.typeName attempt.before.heap)
    attempt.call.name

/-- What it is to fail for this cause and to leave everything as it is. -/
def refused (attempt : Attempt) (cause : MethodCause) :
    Except Misuse (Except EvalError Value) × World :=
  (.ok (.error (.method ⟨attempt.member, cause⟩)), attempt.before)

def event (attempt : Attempt) (method : Method) : Event :=
  .call method.label attempt.call.target? attempt.call.arguments attempt.before.heap

/-- What it is to run the method, once: its outcome, and the graph that it leaves. -/
def ran (attempt : Attempt) (method : Method) : Except Misuse (Except EvalError Value) × World :=
  let (outcome, heap) := method.run attempt.call.target? attempt.call.arguments attempt.before.heap
  (.ok (outcome.mapError fun error => .method ⟨attempt.member, error.cause⟩),
    { attempt.before with
      outside := { attempt.before.outside.note (attempt.event method) with heap } })

inductive Mediated (gateway : Option Registry) (history : List Registration)
    (decision? : Option (Permission → Except String Unit)) (attempt : Attempt) : Prop where
  | unresolved (missing : attempt.registered? history = none)
      (result : attempt.result gateway = attempt.refused (.unresolved attempt.member))
  | denied {method : Method} {decide : Permission → Except String Unit} {permission : String}
      (found : attempt.registered? history = some method) (policy : decision? = some decide)
      (refused : decide (.forMember attempt.member) = .error permission)
      (result : attempt.result gateway = attempt.refused (.denied permission))
  | called {method : Method} (found : attempt.registered? history = some method)
      (accepted : ∀ decide ∈ decision?, decide (.forMember attempt.member) = .ok ())
      (result : attempt.result gateway = attempt.ran method)

/-- A call that enters something in the journal runs a method, once, which it may run. -/
theorem Mediated.runs (h : attempt.Mediated gateway history decision?) :
    attempt.events gateway = [] ∧ (attempt.result gateway).2 = attempt.before ∨
      ∃ method, attempt.registered? history = some method ∧
        (∀ decide ∈ decision?, decide (.forMember attempt.member) = .ok ()) ∧
        attempt.result gateway = attempt.ran method ∧
        attempt.events gateway = [attempt.event method] := by
  have hrefused : ∀ cause, attempt.result gateway = attempt.refused cause →
      attempt.events gateway = [] ∧ (attempt.result gateway).2 = attempt.before := by
    intro cause hresult
    refine ⟨events_eq ?_, by rw [hresult]; rfl⟩
    rw [hresult, List.append_nil]
    rfl
  cases h with
  | unresolved _ result => exact .inl (hrefused _ result)
  | denied _ _ _ result => exact .inl (hrefused _ result)
  | @called method found accepted result =>
    refine .inr ⟨method, found, accepted, result, events_eq ?_⟩
    rw [result]
    rfl

/-- The failure of a call tells how far the call came. -/
theorem Mediated.flags (h : attempt.Mediated gateway history decision?) {failure : MethodFailure}
    (hfailure : (attempt.result gateway).1 = .ok (.error (.method failure))) :
    (failure.isUnresolved = true ↔ attempt.registered? history = none) ∧
      (failure.isDenied = true ↔ attempt.registered? history ≠ none ∧
        ∃ decide ∈ decision?, ∃ permission,
          decide (.forMember attempt.member) = .error permission) := by
  cases h with
  | unresolved missing result =>
    rw [result] at hfailure
    cases hfailure
    exact ⟨iff_of_true rfl missing, iff_of_false nofun fun hne => hne.1 missing⟩
  | denied found policy refused result =>
    rw [result] at hfailure
    cases hfailure
    refine ⟨iff_of_false nofun (by simp [found]), iff_of_true rfl ⟨by simp [found], ?_⟩⟩
    exact ⟨_, policy, _, refused⟩
  | @called method found accepted result =>
    rw [result] at hfailure
    simp only [ran, Except.ok.injEq] at hfailure
    cases hrun : (method.run attempt.call.target? attempt.call.arguments attempt.before.heap).1 with
    | ok value =>
      rw [hrun] at hfailure
      cases hfailure
    | error error =>
      rw [hrun] at hfailure
      cases hfailure
      refine ⟨iff_of_false nofun (by simp [found]), iff_of_false nofun ?_⟩
      rintro ⟨_, decide, hdecide, permission, hrefused⟩
      rw [accepted decide hdecide] at hrefused
      cases hrefused

end Attempt

namespace Registry
variable {history : List Registration}

theorem resolve_of_some {registry : Registry} {heap : Heap} {call : Invocation} {method : Method}
    (h : registry.find? heap call = some method) :
    registry.resolve heap call = (registry.authorize (call.member heap)).map fun _ => method := by
  simp only [resolve, h]
  cases registry.authorize (call.member heap) <;> rfl

section Result
variable {registry : Registry} {attempt : Attempt}

theorem result_of_error {cause : MethodCause}
    (h : registry.resolve attempt.before.outside.heap attempt.call = .error cause) :
    attempt.result (some registry) = attempt.refused cause := by
  simp only [Attempt.result, invoke, Registry.call, h, attempt.call.member_eq]
  rfl

theorem result_of_ok {method : Method}
    (h : registry.resolve attempt.before.outside.heap attempt.call = .ok method) :
    attempt.result (some registry) = attempt.ran method := by
  have hmapError : ∀ outcome : Except HostError Value,
      ((outcome.mapError HostError.cause).mapError fun cause =>
        MethodFailure.mk attempt.member cause).mapError EvalError.method =
      outcome.mapError fun error => .method ⟨attempt.member, error.cause⟩ := by
    intro outcome
    cases outcome <;> rfl
  simp only [Attempt.result, invoke, Registry.call, h, attempt.call.member_eq]
  exact Prod.ext (congrArg Except.ok (hmapError _)) rfl

end Result

/-- Every call through a registry of methods with names without dots is mediated. -/
theorem mediated_attempt (undotted : ∀ entry ∈ history, isUndotted entry.name = true)
    (policy : Option PermissionSet) (hostPolicy : Option HostPolicy) {attempt : Attempt}
    (hcall : isUndotted attempt.call.name = true) :
    attempt.Mediated (some (built history policy hostPolicy)) history
      (decision? { policy, hostPolicy }) := by
  have hfind := find?_built undotted policy hostPolicy attempt.before.heap hcall
  have hdecision := decision?_built history policy hostPolicy
  -- From here on it only matters what the registry finds and how it decides.
  generalize built history policy hostPolicy = registry at hfind hdecision
  rw [← hdecision]
  cases hfound : registry.find? attempt.before.heap attempt.call with
  | none =>
    have hresolve : registry.resolve attempt.before.heap attempt.call =
        .error (.unresolved attempt.member) := by
      simp only [resolve, hfound, attempt.call.member_eq]
      rfl
    exact .unresolved (hfind.symm.trans hfound) (result_of_error hresolve)
  | some method =>
    have hresolve := resolve_of_some hfound
    rw [attempt.call.member_eq] at hresolve
    cases hinstalled : registry.decision? with
    | none =>
      simp only [authorize, hinstalled] at hresolve
      refine .called (hfind.symm.trans hfound) ?_ (result_of_ok hresolve)
      intro decide hdecide
      cases hdecide
    | some decide =>
      simp only [authorize, hinstalled] at hresolve
      cases hdecide : decide (.forMember attempt.member) with
      | ok _ =>
        rw [Attempt.member] at hdecide
        rw [hdecide] at hresolve
        refine .called (hfind.symm.trans hfound) ?_ (result_of_ok hresolve)
        rintro _ ⟨⟩
        exact hdecide
      | error permission =>
        have hdenied := hdecide
        rw [Attempt.member] at hdenied
        rw [hdenied] at hresolve
        exact .denied (hfind.symm.trans hfound) rfl hdecide (result_of_error hresolve)

end Registry

/-! ### Trees -/

/-- All attempted calls are mediated, and their failures tell how far they came. The journal grows
by the methods that they run, in order, and a call that fails is the last, with its failure as the
outcome; no other outcome is the failure of a method. -/
structure Accounts {α : Type} (gateway : Option Registry) (history : List Registration)
    (decision? : Option (Permission → Except String Unit)) (before : List Event)
    (attempts : List Attempt) (result : Except Misuse (Except EvalError α) × World) : Prop where
  mediated : ∀ attempt ∈ attempts, attempt.Mediated gateway history decision?
  runs : ∀ attempt ∈ attempts,
    attempt.events gateway = [] ∧ (attempt.result gateway).2 = attempt.before ∨
      ∃ method, attempt.registered? history = some method ∧
        (∀ decide ∈ decision?, decide (.forMember attempt.member) = .ok ()) ∧
        attempt.result gateway = attempt.ran method ∧
        attempt.events gateway = [attempt.event method]
  flags : ∀ attempt ∈ attempts, ∀ failure,
    (attempt.result gateway).1 = .ok (.error (.method failure)) →
      (failure.isUnresolved = true ↔ attempt.registered? history = none) ∧
        (failure.isDenied = true ↔ attempt.registered? history ≠ none ∧
          ∃ decide ∈ decision?, ∃ permission,
            decide (.forMember attempt.member) = .error permission)
  journal : result.2.outside.journal = before ++ attempts.flatMap (Attempt.events gateway)
  ends : Attempt.Ends gateway attempts result.1

namespace Tree

theorem entrance_eq {env : Env} {home : TreeId} (plain : env.Plain home) (tree : Tree) :
    tree.entrance env home = tree.handleAt env home 0 := by
  unfold entrance
  rw [plain 0]
  cases tree
  rfl

/-- Gets and sets of a tree of the library call methods through its registry alone: each call that
is attempted runs what was registered last for its form, type and name, if anything was and the
policy accepts, and fails as unresolved or as denied otherwise. A get of a method node that succeeds
gives what its own call gives, the last one after those of its arguments. -/
theorem mediated {env : Env} {home : TreeId} {history : List Registration}
    {policy : Option PermissionSet} {hostPolicy : Option HostPolicy}
    (gateway : env.gateway = some (.built history policy hostPolicy))
    (registered : ∀ entry ∈ history, isUndotted entry.name = true) (plain : env.Plain home)
    {tree : Tree} (standard : tree.all Body.isStandard = true)
    (undotted : tree.all Body.isUndotted = true) (id : NodeId) (world : World) :
    tree.entrance env home = tree.handleAt env home 0 ∧
    (∀ source, Accounts env.gateway history (Registry.decision? { policy, hostPolicy })
      world.outside.journal ((tree.attemptsAt env home id).get source world)
      ((tree.handleAt env home id).get source world)) ∧
    (∀ target value, Accounts env.gateway history (Registry.decision? { policy, hostPolicy })
      world.outside.journal ((tree.attemptsAt env home id).set target value world)
      ((tree.handleAt env home id).set target value world)) ∧
    ∀ body slots, tree.Sub id (.node body slots) → body.callee?.isSome = true →
      (world.constants.cell home id).value = none → ∀ source,
        Attempt.Answers env.gateway body source
          (OfChildren env home id slots world.context.settings.root)
          ((tree.attemptsAt env home id).get source world)
          ((tree.handleAt env home id).get source world) := by
  have hexplained := explained plain standard undotted id
  have haccounts : ∀ {α : Type} {attempts : List Attempt}
      {result : Except Misuse (Except EvalError α) × World},
      Explains env.gateway world.outside.journal attempts result →
        Accounts env.gateway history (Registry.decision? { policy, hostPolicy })
          world.outside.journal attempts result := by
    intro α attempts result explains
    have hmediated : ∀ attempt ∈ attempts, attempt.Mediated env.gateway history
        (Registry.decision? { policy, hostPolicy }) := by
      intro attempt hattempt
      rw [gateway]
      exact Registry.mediated_attempt registered policy hostPolicy
        (explains.undotted attempt hattempt)
    exact ⟨hmediated, fun attempt hattempt => (hmediated attempt hattempt).runs,
      fun attempt hattempt failure => (hmediated attempt hattempt).flags, explains.journal,
      explains.ends⟩
  exact ⟨entrance_eq plain tree, fun source => haccounts (hexplained.get source world),
    fun target value => haccounts (hexplained.set target value world),
    fun _ _ hsub calls hnone => answers hsub calls hnone⟩

end Tree

def Env.guarded : Env where
  gateway := some (.built
    [⟨true, "Host", "echo", Behaviour.firstArgument.method "first"⟩,
      ⟨true, "Host", "echo", Behaviour.arguments.method "second"⟩]
    (some ⟨[⟨"invoke.Host.echo", none⟩]⟩) none)

theorem listCall_mediated :
    let history : List Registration :=
      [⟨true, "Host", "echo", Behaviour.firstArgument.method "first"⟩,
        ⟨true, "Host", "echo", Behaviour.arguments.method "second"⟩]
    let attempts := (Tree.listCall.attemptsAt .guarded 0 0).get .null {}
    let result := (Tree.listCall.handleAt .guarded 0 0).get .null {}
    (attempts.map fun attempt => attempt.call.name) = ["echo"] ∧
      (result.2.outside.journal.map fun event =>
        match event with
        | .call label .. => some label
        | _ => none) = [some "second"] ∧
      Accounts Env.guarded.gateway history
        (Registry.decision? { policy := some ⟨[⟨"invoke.Host.echo", none⟩]⟩ }) [] attempts result ∧
      ∃ value, result.1 = .ok (.ok value) ∧ ∃ last ∈ attempts,
        (last.result Env.guarded.gateway).1 = .ok (.ok value) := by
  intro history attempts result
  obtain ⟨-, accounts, -, answers⟩ := @Tree.mediated .guarded 0 history _ none rfl (by decide)
    (fun _ => rfl) Tree.listCall (by decide) (by decide) 0 {}
  obtain ⟨value, hvalue⟩ : ∃ value, result.1 = .ok (.ok value) := ⟨_, rfl⟩
  obtain ⟨front, last, values, hattempts, -, -, hlast, -⟩ :=
    answers _ _ .root rfl rfl .null value hvalue
  refine ⟨by decide +kernel, by decide +kernel, accounts .null, value, hvalue, last, ?_, hlast⟩
  rw [show attempts = front ++ [last] from hattempts]
  exact List.mem_append_right _ List.mem_cons_self

end ObjectNavigation
