import ObjectNavigation.Proofs.Script.Closed

/-!
Scripts that are confined to certain children: they name no others, whatever answers they get, and
as long as nothing they use lacks a child they do not say that one is missing. The bodies of the
library are confined to the slots of their node if they suit the number of its slots
(`Body.confined_read`, `Body.confined_assign`, `Body.confined_ask`).
-/

namespace ObjectNavigation

/-- The outcome is not that a child is missing. -/
def Complete {α : Type} (outcome : Except EvalError α) : Prop :=
  ∀ kind index, outcome ≠ .error (.missingChild kind index)

theorem Complete.ok {α : Type} (value : α) : Complete (.ok value) := nofun

theorem Complete.error {α : Type} {error : EvalError}
    (h : ∀ kind index, error ≠ .missingChild kind index) :
    Complete (.error error : Except EvalError α) :=
  fun kind index heq => h kind index (Except.error.inj heq)

theorem EvalError.OfBody.ne_missingChild {error : EvalError} (h : error.OfBody)
    (kind : Kind) (index : Nat) : error ≠ .missingChild kind index := by
  cases h with
  | operation h => cases h <;> simp
  | _ => simp

theorem Complete.method {α : Type} (outcome : Except MethodFailure α) :
    Complete (outcome.mapError .method) := by
  cases outcome with
  | error failure => exact .error nofun
  | ok value => exact .ok value

namespace Script
variable {C α β : Type} {known : C → Prop}

inductive Confined (known : C → Prop) : Script C α → Prop where
  | done {outcome : Except EvalError α} (h : Complete outcome) : Confined known (.done outcome)
  | get {child : C} {source : Value} {next : Except EvalError Value → Script C α}
      (within : known child) (follow : ∀ answer, Complete answer → Confined known (next answer)) :
      Confined known (.get child source next)
  | set {child : C} {target value : Value} {next : Except EvalError Unit → Script C α}
      (within : known child) (follow : ∀ answer, Complete answer → Confined known (next answer)) :
      Confined known (.set child target value next)
  | ask {child : C} {question : Question} {next : Except EvalError Bool → Script C α}
      (within : known child) (follow : ∀ answer, Complete answer → Confined known (next answer)) :
      Confined known (.ask child question next)
  | invoke {call : Invocation} {next : Except EvalError Value → Script C α}
      (follow : ∀ answer, Complete answer → Confined known (next answer)) :
      Confined known (.invoke call next)
  | look {next : Surface → Script C α} (follow : ∀ surface, Confined known (next surface)) :
      Confined known (.look next)
  | locate {next : Position → Script C α} (follow : ∀ position, Confined known (next position)) :
      Confined known (.locate next)
  | alter {change : Surface → Surface} {next : Script C α} (follow : Confined known next) :
      Confined known (.alter change next)

namespace Confined

theorem mono {wider : C → Prop} {script : Script C α} (h : Confined known script)
    (himp : ∀ child, known child → wider child) : Confined wider script := by
  induction h with
  | done h => exact .done h
  | get within _ ih => exact .get (himp _ within) ih
  | set within _ ih => exact .set (himp _ within) ih
  | ask within _ ih => exact .ask (himp _ within) ih
  | invoke _ ih => exact .invoke ih
  | look _ ih => exact .look ih
  | locate _ ih => exact .locate ih
  | alter _ ih => exact .alter ih

theorem pure (value : α) : Confined known (Pure.pure value : Script C α) :=
  .done (.ok value)

theorem fail {error : EvalError} (h : ∀ kind index, error ≠ .missingChild kind index) :
    Confined known (Script.fail error : Script C α) :=
  .done (.error h)

theorem bind {script : Script C α} (h : Confined known script) {next : α → Script C β}
    (hnext : ∀ value, Confined known (next value)) : Confined known (script >>= next) := by
  rw [bind_eq_andThen]
  induction h with
  | @done outcome h =>
    cases outcome with
    | ok value => exact hnext value
    | error error => exact .done (.error fun kind index heq => h kind index (congrArg _ heq))
  | get within _ ih => exact .get within ih
  | set within _ ih => exact .set within ih
  | ask within _ ih => exact .ask within ih
  | invoke _ ih => exact .invoke ih
  | look _ ih => exact .look ih
  | locate _ ih => exact .locate ih
  | alter _ ih => exact .alter ih

theorem closed : Closed known (fun _ => True) fun _ script => Confined known script where
  pure := .pure
  fail h := .fail h.ne_missingChild
  bind h follow := Confined.bind h follow
  getValue within _ := .get within fun _ => .done
  setValue within _ _ := .set within fun _ => .done
  question within _ := .ask within fun _ => .done
  call _ := .invoke fun _ => .done
  heap := .look fun surface => .pure surface.heap
  root follow := .look fun surface => follow surface.settings.root
  withHeap _ := .alter (.pure ())

end Confined
end Script

/-! ### Bodies of the library -/

namespace Body
open Script (Confined)

variable {body : Body} {seat : Seat}

section Suits
variable (suits : body.suits seat.slots = true)
include suits

theorem confined_read (source : Value) : Confined (· < seat.slots) (body.read seat source) :=
  Confined.closed.read (fun _ => id) (fun hnot => absurd suits (by simp [hnot]))
    (isStandard_of_suits suits) (fun _ _ => trivial) source

theorem confined_assign (target value : Value) :
    Confined (· < seat.slots) (body.assign seat target value) :=
  Confined.closed.assign (fun _ => id) (fun hnot => absurd suits (by simp [hnot]))
    (isStandard_of_suits suits) target value

end Suits

theorem confined_ask (standard : body.isStandard = true) (seat : Seat) (question : Question) :
    Confined (· < seat.slots) (body.ask seat question) :=
  Confined.closed.ask (fun _ => id) standard question

end Body
end ObjectNavigation
