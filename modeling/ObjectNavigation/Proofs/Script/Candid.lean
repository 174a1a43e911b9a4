import ObjectNavigation.Proofs.Script.Closed

/-!
Scripts that are candid about method calls: they pass every failure on, raise no failure of a method
of their own, leave the journal alone, and call methods by names without a dot. The bodies of the
library are candid if the names they call by are such (`Body.candid_read`, `Body.candid_assign`,
`Body.candid_ask`).
-/

namespace ObjectNavigation

/-- The outcome is no failure of a method. -/
def Unfailing {α : Type} (outcome : Except EvalError α) : Prop :=
  ∀ failure, outcome ≠ .error (.method failure)

theorem Unfailing.ok {α : Type} (value : α) : Unfailing (.ok value) := nofun

theorem EvalError.OfBody.ne_method {error : EvalError} (h : error.OfBody)
    (failure : MethodFailure) : error ≠ .method failure := by
  cases h with
  | operation h => cases h <;> simp
  | _ => simp

namespace Script
variable {C α β : Type}

inductive Candid : Script C α → Prop where
  | done {outcome : Except EvalError α} (h : Unfailing outcome) : Candid (.done outcome)
  | get {child : C} {source : Value} {next : Except EvalError Value → Script C α}
      (passes : ∀ error, next (.error error) = .done (.error error))
      (follow : ∀ value, Candid (next (.ok value))) : Candid (.get child source next)
  | set {child : C} {target value : Value} {next : Except EvalError Unit → Script C α}
      (passes : ∀ error, next (.error error) = .done (.error error))
      (follow : ∀ done, Candid (next (.ok done))) : Candid (.set child target value next)
  | ask {child : C} {question : Question} {next : Except EvalError Bool → Script C α}
      (passes : ∀ error, next (.error error) = .done (.error error))
      (follow : ∀ answer, Candid (next (.ok answer))) : Candid (.ask child question next)
  | invoke {call : Invocation} {next : Except EvalError Value → Script C α}
      (undotted : isUndotted call.name = true)
      (passes : ∀ error, next (.error error) = .done (.error error))
      (follow : ∀ value, Candid (next (.ok value))) : Candid (.invoke call next)
  | look {next : Surface → Script C α} (follow : ∀ surface, Candid (next surface)) :
      Candid (.look next)
  | alter {change : Surface → Surface} {next : Script C α}
      (journal : ∀ surface, (change surface).outside.journal = surface.outside.journal)
      (follow : Candid next) : Candid (.alter change next)

namespace Candid

theorem pure (value : α) : Candid (Pure.pure value : Script C α) :=
  .done (.ok value)

theorem fail {error : EvalError} (h : ∀ failure, error ≠ .method failure) :
    Candid (Script.fail error : Script C α) :=
  .done fun failure heq => h failure (Except.error.inj heq)

theorem bind {script : Script C α} (h : Candid script) {next : α → Script C β}
    (hnext : ∀ value, Candid (next value)) : Candid (script >>= next) := by
  rw [bind_eq_andThen]
  induction h with
  | @done outcome h =>
    cases outcome with
    | ok value => exact hnext value
    | error error => exact .fail fun failure heq => h failure (congrArg _ heq)
  | get passes _ ih =>
    refine .get (fun error => ?_) ih
    rw [passes]
    rfl
  | set passes _ ih =>
    refine .set (fun error => ?_) ih
    rw [passes]
    rfl
  | ask passes _ ih =>
    refine .ask (fun error => ?_) ih
    rw [passes]
    rfl
  | invoke undotted passes _ ih =>
    refine .invoke undotted (fun error => ?_) ih
    rw [passes]
    rfl
  | look _ ih => exact .look ih
  | alter journal _ ih => exact .alter journal ih

theorem closed : Closed (fun _ : C => True) (fun name => isUndotted name = true)
    fun _ script => Candid script where
  pure := .pure
  fail h := .fail h.ne_method
  bind h follow := Candid.bind h follow
  getValue _ _ := .get (fun _ => rfl) .pure
  setValue _ _ _ := .set (fun _ => rfl) .pure
  question _ _ := .ask (fun _ => rfl) .pure
  call h := .invoke h (fun _ => rfl) .pure
  heap := .look fun surface => .pure surface.heap
  root follow := .look fun surface => follow surface.settings.root
  withHeap _ := .alter (fun _ => rfl) (.pure ())

end Candid
end Script

/-! ### Bodies of the library -/

namespace Body
open Script (Candid)

/-- The name by which the body calls, if it calls, has no dot. -/
def isUndotted : Body → Bool
  | method name | staticMethod _ name => ObjectNavigation.isUndotted name
  | _ => true

theorem isUndotted_of_callee? {body : Body} (h : body.isUndotted = true) {name : String}
    (hname : name ∈ body.callee?) : ObjectNavigation.isUndotted name = true := by
  cases body with
  | method | staticMethod =>
    cases hname
    exact h
  | _ => cases hname

theorem candid_missing (seat : Seat) {α : Type} : Candid (seat.missing 0 : BodyScript α) :=
  .fail nofun

variable {body : Body} (standard : body.isStandard = true)
include standard

theorem candid_read (undotted : body.isUndotted = true) (seat : Seat) (source : Value) :
    Candid (body.read seat source) :=
  Candid.closed.read (fun _ _ => trivial) (fun _ => ⟨trivial, candid_missing seat⟩) standard
    (fun _ => isUndotted_of_callee? undotted) source

theorem candid_assign (seat : Seat) (target value : Value) :
    Candid (body.assign seat target value) :=
  Candid.closed.assign (fun _ _ => trivial) (fun _ => ⟨trivial, candid_missing seat⟩) standard
    target value

theorem candid_ask (seat : Seat) (question : Question) : Candid (body.ask seat question) :=
  Candid.closed.ask (fun _ _ => trivial) standard question

end Body
end ObjectNavigation
