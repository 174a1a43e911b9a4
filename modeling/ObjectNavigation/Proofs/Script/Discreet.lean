import Mathlib.Logic.Equiv.Defs
import ObjectNavigation.Accessor
import ObjectNavigation.Node.Probe
import ObjectNavigation.Proofs.Script.Closed

/-!
Scripts to which the ids of records are no more than names. A script that asks where the evaluation
stands is told the innermost and the outermost record in progress; it is discreet if under any
permutation of their ids it does the same. It may tell ids apart, but not what is in them: no value,
no change and no choice depends on which ids they are. The bodies of the library are discreet
(`Body.discreet_of_isStandard`), and so are all probes but those that read the position
(`Probe.discreet`).
-/

namespace ObjectNavigation

def Position.renamed (π : Equiv.Perm CallId) (position : Position) : Position :=
  { position with current := position.current.map π, root := position.root.map π }

namespace Script
variable {C α β : Type}

/-- The second script does, when records have other names, what the first one does. -/
inductive Renames (π : Equiv.Perm CallId) : Script C α → Script C α → Prop where
  | done (outcome : Except EvalError α) : Renames π (.done outcome) (.done outcome)
  | get {child : C} {source : Value} {next next' : Except EvalError Value → Script C α}
      (follow : ∀ answer, Renames π (next answer) (next' answer)) :
      Renames π (.get child source next) (.get child source next')
  | set {child : C} {target value : Value} {next next' : Except EvalError Unit → Script C α}
      (follow : ∀ answer, Renames π (next answer) (next' answer)) :
      Renames π (.set child target value next) (.set child target value next')
  | ask {child : C} {question : Question} {next next' : Except EvalError Bool → Script C α}
      (follow : ∀ answer, Renames π (next answer) (next' answer)) :
      Renames π (.ask child question next) (.ask child question next')
  | invoke {call : Invocation} {next next' : Except EvalError Value → Script C α}
      (follow : ∀ answer, Renames π (next answer) (next' answer)) :
      Renames π (.invoke call next) (.invoke call next')
  | look {next next' : Surface → Script C α}
      (follow : ∀ surface, Renames π (next surface) (next' surface)) :
      Renames π (.look next) (.look next')
  | locate {next next' : Position → Script C α}
      (follow : ∀ position, Renames π (next position) (next' (position.renamed π))) :
      Renames π (.locate next) (.locate next')
  | alter {change : Surface → Surface} {next next' : Script C α} (follow : Renames π next next') :
      Renames π (.alter change next) (.alter change next')

theorem Renames.andThen {π : Equiv.Perm CallId} {script script' : Script C α}
    (h : Renames π script script') {next next' : Except EvalError α → Script C β}
    (follow : ∀ outcome, Renames π (next outcome) (next' outcome)) :
    Renames π (script.andThen next) (script'.andThen next') := by
  induction h with
  | done outcome => exact follow outcome
  | get _ ih => exact .get ih
  | set _ ih => exact .set ih
  | ask _ ih => exact .ask ih
  | invoke _ ih => exact .invoke ih
  | look _ ih => exact .look ih
  | locate _ ih => exact .locate ih
  | alter _ ih => exact .alter ih

/-- The script does the same whatever the names of records. -/
def Discreet (script : Script C α) : Prop :=
  ∀ π, Renames π script script

namespace Discreet

theorem andThen {script : Script C α} (h : script.Discreet)
    {next : Except EvalError α → Script C β} (follow : ∀ outcome, (next outcome).Discreet) :
    (script.andThen next).Discreet :=
  fun π => (h π).andThen fun outcome => follow outcome π

theorem pure (value : α) : (Pure.pure value : Script C α).Discreet :=
  fun _ => .done _

theorem fail (error : EvalError) : (Script.fail error : Script C α).Discreet :=
  fun _ => .done _

theorem bind {script : Script C α} (h : script.Discreet) {next : α → Script C β}
    (follow : ∀ value, (next value).Discreet) : (script >>= next).Discreet := by
  refine h.andThen fun outcome => ?_
  cases outcome with
  | ok value => exact follow value
  | error error => exact .fail error

theorem getValue (child : C) (source : Value) : (Script.getValue child source).Discreet :=
  fun _ => .get .done

theorem setValue (child : C) (target value : Value) :
    (Script.setValue child target value).Discreet :=
  fun _ => .set .done

theorem surface : (Script.surface : Script C Surface).Discreet :=
  fun _ => .look fun _ => .done _

theorem change (change : Surface → Surface) : (Script.change change : Script C Unit).Discreet :=
  fun _ => .alter (.done _)

theorem closed : Closed (fun _ : C => True) (fun _ => True) fun _ script => script.Discreet where
  pure := .pure
  fail _ := .fail _
  bind h follow := Discreet.bind h follow
  getValue _ := .getValue _
  setValue _ := .setValue _
  question _ _ := fun _ => .ask .done
  call _ := fun _ => .invoke .done
  heap := fun _ => .look fun _ => .done _
  root follow := fun π => .look fun surface => follow surface.settings.root π
  withHeap _ := .change _

end Discreet
end Script

/-! ### Bodies, trees and accessors -/

structure Body.Discreet (body : Body) : Prop where
  read : ∀ seat source, (body.read seat source).Discreet
  assign : ∀ seat target value, (body.assign seat target value).Discreet
  ask : ∀ seat question, (body.ask seat question).Discreet

theorem Body.discreet_of_isStandard {body : Body} (h : body.isStandard = true) :
    body.Discreet where
  read _ :=
    Script.Discreet.closed.read (fun _ _ => trivial) (fun _ => ⟨trivial, .fail _⟩) h
      fun _ _ => trivial
  assign _ := Script.Discreet.closed.assign (fun _ _ => trivial) (fun _ => ⟨trivial, .fail _⟩) h
  ask _ := Script.Discreet.closed.ask (fun _ _ => trivial) h

theorem Body.discreet_slotsConstant (seat : Seat) {own : BodyScript Bool} (h : own.Discreet) :
    (slotsConstant seat own).Discreet := by
  unfold slotsConstant
  split
  next => exact h
  next => exact Script.Discreet.closed.allAgree _ fun _ _ => trivial

/-- A body of the host that has no more than a reading is discreet if the reading is. -/
theorem Body.discreet_host (kind : Kind) {read : Seat → Value → BodyScript Value}
    (h : ∀ seat source, (read seat source).Discreet) :
    (Body.host { kind, read }).Discreet where
  read := h
  assign seat target value := Script.Discreet.closed.refuse seat
  ask seat question := by
    cases question with
    | childrenConstant => exact discreet_slotsConstant seat (.pure false)
    | constant => exact .pure false
    | simpleProperty => exact .pure false
    | simpleChain => exact .pure false

/-- Reads whether the call in progress is the outermost one. -/
def HostBody.outermost : HostBody where
  kind := .custom "Outermost"
  read _ _ := .locate fun position => pure (.bool (position.current == position.root))

theorem Body.discreet_outermost : (Body.host .outermost).Discreet := by
  refine discreet_host _ fun _ _ π => .locate fun position => ?_
  have hsame : (position.current.map π == position.root.map π) =
      (position.current == position.root) := by
    rw [Bool.eq_iff_iff, beq_iff_eq, beq_iff_eq]
    exact (Option.map_injective π.injective).eq_iff
  simp only [Position.renamed, hsame]
  exact .done _

namespace Probe
open Script (Discreet)

theorem discreet_note (probe : Probe) (hook : String) : (probe.note hook).Discreet :=
  .change _

theorem discreet_answer (answer : Answer) : (Probe.answer answer).Discreet := by
  cases answer with
  | yes => exact .pure true
  | fail error => exact .fail error
  | no => exact .pure false
  | children => exact .pure false

theorem discreet_children (seat : Seat) (source : Value) : (children seat source).Discreet :=
  Discreet.bind (Discreet.closed.operands (fun _ _ => trivial) source) Discreet.closed.newList

theorem discreet_read {probe : Probe} (h : probe.reading ≠ .context) (seat : Seat)
    (source : Value) : (probe.read seat source).Discreet := by
  refine (probe.discreet_note "get").bind fun _ => ?_
  have hchildren := discreet_children seat source
  cases hreading : probe.reading with
  | source => exact .pure source
  | value value => exact .pure value
  | fail error => exact .fail error
  | failTimes counter times error value =>
    have hcount : (count counter).Discreet :=
      Discreet.surface.bind fun _ => (Discreet.change _).bind fun _ => .pure _
    refine hcount.bind fun runs => ?_
    split
    next => exact .fail error
    next => exact .pure value
  | children => exact hchildren
  | recover value =>
    refine Discreet.bind (hchildren.andThen .pure) fun outcome => ?_
    cases outcome with
    | ok list => exact .pure list
    | error error => exact .pure value
  | recoverFail error =>
    refine Discreet.bind ?_ fun _ => .fail error
    exact Discreet.bind (hchildren.andThen .pure) fun _ => .pure _
  | context => exact absurd hreading h
  | configure trace keep root => exact (Discreet.change _).bind fun _ => hchildren

theorem discreet_assign (probe : Probe) (seat : Seat) (target value : Value) :
    (probe.assign seat target value).Discreet := by
  refine (probe.discreet_note "set").bind fun _ => ?_
  cases probe.assigning with
  | refuse => exact Discreet.closed.refuse seat
  | accept => exact .pure ()
  | fail error => exact .fail error
  | children =>
    show ((List.range seat.slots).forM (Script.setValue · target value)).Discreet
    induction List.range seat.slots with
    | nil => exact .pure ()
    | cons slot rest ih => exact (Discreet.setValue slot target value).bind fun _ => ih

theorem discreet {probe : Probe} (h : probe.reading ≠ .context) :
    (Body.host probe.body).Discreet where
  read := discreet_read h
  assign := probe.discreet_assign
  ask seat question := by
    have hconstant : (probe.ownConstant seat).Discreet :=
      (probe.discreet_note _).bind fun _ => discreet_answer _
    have hsimple : (probe.ownSimple seat).Discreet :=
      (probe.discreet_note _).bind fun _ => discreet_answer _
    cases question with
    | constant =>
      show (probe.constant seat).Discreet
      unfold constant
      split
      next => exact Body.discreet_slotsConstant seat hconstant
      next => exact hconstant
    | childrenConstant => exact Body.discreet_slotsConstant seat hconstant
    | simpleProperty => exact hsimple
    | simpleChain => exact hsimple

end Probe

structure Accessor.Discreet (accessor : Accessor) : Prop where
  read : ∀ source, (accessor.read source).Discreet
  assign : ∀ target value, (accessor.assign target value).Discreet

namespace Tree

def Discreet (tree : Tree) : Prop :=
  ∀ place ∈ tree.places, place.subtree.body.Discreet

variable {tree : Tree}

theorem Discreet.sub (h : tree.Discreet) {id : NodeId} {sub : Tree} (hsub : tree.Sub id sub) :
    sub.body.Discreet := by
  obtain ⟨place, hplace⟩ := exists_lookUp hsub.lt_size
  rw [hsub.unique (.of_lookUp hplace)]
  exact h place (List.mem_of_getElem? (lookUp_eq_ok_iff.1 hplace))

theorem discreet_of_isStandard (h : tree.all Body.isStandard = true) : tree.Discreet := by
  intro place hplace
  have hall := (Sub.of_lookUp (lookUp_of_mem hplace)).all h
  cases hsubtree : place.subtree with
  | node body slots =>
    rw [hsubtree, all, Bool.and_eq_true] at hall
    exact Body.discreet_of_isStandard hall.1

end Tree
end ObjectNavigation
