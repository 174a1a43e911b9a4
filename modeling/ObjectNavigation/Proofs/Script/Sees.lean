import ObjectNavigation.Proofs.Script.Closed

/-!
What scripts see of the surface. A script sees no more than a relation tells if it goes on alike
from surfaces that are so related, changes them alike, and never asks where the evaluation stands.
The bodies of the library see the object graph and the root, and change the graph alone
(`Body.sees_read`, `Body.sees_assign`, `Body.sees_ask`).
-/

namespace ObjectNavigation

namespace Script
variable {C α β : Type} {same : Surface → Surface → Prop}

inductive Sees (same : Surface → Surface → Prop) : Script C α → Prop where
  | done (outcome : Except EvalError α) : Sees same (.done outcome)
  | get {child : C} {source : Value} {next : Except EvalError Value → Script C α}
      (follow : ∀ answer, Sees same (next answer)) : Sees same (.get child source next)
  | set {child : C} {target value : Value} {next : Except EvalError Unit → Script C α}
      (follow : ∀ answer, Sees same (next answer)) : Sees same (.set child target value next)
  | ask {child : C} {question : Question} {next : Except EvalError Bool → Script C α}
      (follow : ∀ answer, Sees same (next answer)) : Sees same (.ask child question next)
  | invoke {call : Invocation} {next : Except EvalError Value → Script C α}
      (follow : ∀ answer, Sees same (next answer)) : Sees same (.invoke call next)
  | look {next : Surface → Script C α}
      (agree : ∀ surface surface', same surface surface' → next surface = next surface')
      (follow : ∀ surface, Sees same (next surface)) : Sees same (.look next)
  | alter {change : Surface → Surface} {next : Script C α}
      (agree : ∀ surface surface', same surface surface' → same (change surface) (change surface'))
      (follow : Sees same next) : Sees same (.alter change next)

namespace Sees

theorem andThen {script : Script C α} (h : Sees same script)
    {next : Except EvalError α → Script C β} (follow : ∀ answer, Sees same (next answer)) :
    Sees same (script.andThen next) := by
  induction h with
  | done outcome => exact follow outcome
  | get _ ih => exact .get ih
  | set _ ih => exact .set ih
  | ask _ ih => exact .ask ih
  | invoke _ ih => exact .invoke ih
  | look agree _ ih =>
    refine .look (fun surface surface' h => ?_) ih
    rw [agree surface surface' h]
  | alter agree _ ih => exact .alter agree ih

theorem pure (value : α) : Sees same (Pure.pure value : Script C α) :=
  .done (.ok value)

theorem fail (error : EvalError) : Sees same (Script.fail error : Script C α) :=
  .done (.error error)

theorem bind {script : Script C α} (h : Sees same script) {next : α → Script C β}
    (follow : ∀ value, Sees same (next value)) : Sees same (script >>= next) := by
  refine h.andThen fun answer => ?_
  cases answer with
  | ok value => exact follow value
  | error error => exact .fail error

theorem getValue (child : C) (source : Value) : Sees same (Script.getValue child source) :=
  .get .done

theorem setValue (child : C) (target value : Value) :
    Sees same (Script.setValue child target value) :=
  .set .done

theorem question (child : C) (question : Question) : Sees same (Script.question child question) :=
  .ask .done

theorem call (call : Invocation) : Sees same (Script.call call : Script C Value) :=
  .invoke .done

end Sees

/-- What tells the object graph and the root, and bears with a change of the graph. -/
structure Sight (same : Surface → Surface → Prop) : Prop where
  heap : ∀ {surface surface'}, same surface surface' → surface.heap = surface'.heap
  root : ∀ {surface surface'}, same surface surface' →
    surface.settings.root = surface'.settings.root
  withHeap : ∀ {surface surface'}, same surface surface' →
    ∀ heap, same (surface.withHeap heap) (surface'.withHeap heap)

theorem Sight.closed (sight : Sight same) :
    Closed (fun _ : C => True) (fun _ => True) fun _ script => Sees same script where
  pure := .pure
  fail _ := .fail _
  bind h follow := Sees.bind h follow
  getValue _ := .getValue _
  setValue _ := .setValue _
  question _ := .question _
  call _ := .call _
  heap := by
    refine .look (fun surface surface' h => ?_) fun surface => .pure surface.heap
    rw [sight.heap h]
  root {α next} follow := by
    refine .look (fun surface surface' h => ?_) fun surface => follow surface.settings.root
    show next surface.settings.root = next surface'.settings.root
    rw [sight.root h]
  withHeap act := by
    refine .alter (fun surface surface' h => ?_) (.pure ())
    rw [sight.heap h]
    exact sight.withHeap h _

end Script

/-! ### Bodies of the library -/

namespace Body
open Script (Sees Sight)

variable {same : Surface → Surface → Prop} (sight : Sight same) {body : Body}
  (standard : body.isStandard = true) (seat : Seat)
include sight standard

theorem sees_read (source : Value) : Sees same (body.read seat source) :=
  sight.closed.read (fun _ _ => trivial) (fun _ => ⟨trivial, .fail _⟩) standard
    (fun _ _ => trivial) source

theorem sees_assign (target value : Value) : Sees same (body.assign seat target value) :=
  sight.closed.assign (fun _ _ => trivial) (fun _ => ⟨trivial, .fail _⟩) standard target value

theorem sees_ask (question : Question) : Sees same (body.ask seat question) :=
  sight.closed.ask (fun _ _ => trivial) standard question

end Body
end ObjectNavigation
