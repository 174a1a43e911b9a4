import ObjectNavigation.Proofs.Method.Member
import ObjectNavigation.Proofs.Node.Standard
import ObjectNavigation.Proofs.Value.Fault

/-!
Properties of scripts that go from steps to what is put together from them. The bodies of the
library are put together from few kinds of steps, so such a property holds of all that they do
(`Script.Closed.read`, `Script.Closed.assign`, `Script.Closed.ask`).
-/

namespace ObjectNavigation

/-- A body of the library with a child in every slot it needs can fail with the error by itself. -/
inductive EvalError.OfBody : EvalError → Prop where
  | operation {error : EvalError} (h : error.OfOperation) : OfBody error
  | noSuchProperty (name typeName : String) : OfBody (.noSuchProperty name typeName)
  | inappropriate (kind : Kind) (expression : String) : OfBody (.inappropriate kind expression)

namespace Body

def suits (slots : Nat) : Body → Bool
  | chain | arithmetic _ | negate => 0 < slots
  | host _ => false
  | _ => true

theorem isStandard_of_suits {body : Body} {slots : Nat} (h : body.suits slots = true) :
    body.isStandard = true := by
  cases body with
  | host host => cases h
  | _ => rfl

/-- The name by which the body calls, if it calls. -/
def callee? : Body → Option String
  | method name | staticMethod _ name => some name
  | _ => none

end Body

namespace Script

/-- The property goes from the steps of a script to the whole. Steps reach the children of which
`reaches` holds and call by the names of which `calls` holds. -/
structure Closed {C : Type} (reaches : C → Prop) (calls : String → Prop)
    (P : (α : Type) → Script C α → Prop) : Prop where
  pure : ∀ {α : Type} (value : α), P α (pure value)
  fail : ∀ {α : Type} {error : EvalError}, error.OfBody → P α (fail error)
  bind : ∀ {α β : Type} {script : Script C α} {next : α → Script C β},
    P α script → (∀ value, P β (next value)) → P β (script >>= next)
  getValue : ∀ {child}, reaches child → ∀ source, P Value (getValue child source)
  setValue : ∀ {child}, reaches child → ∀ target value, P Unit (setValue child target value)
  question : ∀ {child}, reaches child → ∀ asked, P Bool (question child asked)
  call : ∀ {invocation : Invocation}, calls invocation.name → P Value (call invocation)
  heap : P Heap heap
  root : ∀ {α : Type} {next : Value → Script C α},
    (∀ root, P α (next root)) → P α (surface >>= fun surface => next surface.settings.root)
  withHeap : ∀ act : Heap → Heap, P Unit (change fun surface => surface.withHeap (act surface.heap))

namespace Closed
variable {calls : String → Prop}

section Steps
variable {C : Type} {reaches : C → Prop} {P : (α : Type) → Script C α → Prop}
  (closed : Closed reaches calls P)
include closed

theorem done {α : Type} {outcome : Except EvalError α}
    (h : ∀ error, outcome = .error error → error.OfBody) : P α (.done outcome) := by
  cases outcome with
  | ok value => exact closed.pure value
  | error error => exact closed.fail (h error rfl)

theorem newList (items : List Value) : P Value (Script.newList items) := by
  refine closed.bind closed.heap fun heap => ?_
  exact closed.bind (closed.withHeap fun _ => (heap.newList items).2) fun _ => closed.pure _

theorem mapM {ι α : Type} {indices : List ι} {step : ι → Script C α}
    (h : ∀ index ∈ indices, P α (step index)) : P (List α) (indices.mapM step) := by
  induction indices with
  | nil => exact closed.pure []
  | cons index rest ih =>
    obtain ⟨hindex, hrest⟩ := List.forall_mem_cons.1 h
    rw [List.mapM_cons]
    exact closed.bind hindex fun value => closed.bind (ih hrest) fun values => closed.pure _

end Steps

/-! ### Bodies of the library -/

variable {reaches : Nat → Prop} {P : (α : Type) → BodyScript α → Prop}
  (closed : Closed reaches calls P)
include closed

theorem walk {links : Nat} (h : ∀ index < links, reaches index) (source : Value) :
    P Value (Body.walk links source) := by
  have hall : ∀ index ∈ List.range links, reaches index :=
    fun index hindex => h index (List.mem_range.1 hindex)
  unfold Body.walk
  generalize List.range links = indices at hall
  induction indices generalizing source with
  | nil => exact closed.pure source
  | cons index rest ih =>
    obtain ⟨hindex, hrest⟩ := List.forall_mem_cons.1 hall
    rw [List.foldlM_cons]
    exact closed.bind (closed.getValue hindex source) fun value => ih value hrest

theorem allAgree (asked : Question) {indices : List Nat} (h : ∀ index ∈ indices, reaches index) :
    P Bool (Body.allAgree asked indices) := by
  induction indices with
  | nil => exact closed.pure true
  | cons index rest ih =>
    obtain ⟨hindex, hrest⟩ := List.forall_mem_cons.1 h
    rw [Body.allAgree]
    refine closed.bind (closed.question hindex asked) fun answer => ?_
    cases answer with
    | true => exact ih hrest
    | false => exact closed.pure false

theorem refuse (seat : Seat) {α : Type} : P α seat.refuse :=
  closed.bind closed.heap fun _ => closed.fail (.inappropriate _ _)

section Seat
variable {seat : Seat} (within : ∀ index < seat.slots, reaches index)
include within

theorem operands (source : Value) : P (List Value) (Body.operands seat source) :=
  closed.mapM fun _ hindex => closed.getValue (within _ (List.mem_range.1 hindex)) source

theorem arguments : P (List Value) (Body.arguments seat) :=
  closed.root fun root => closed.operands within root

/-- One value comes of each slot, and so there is a first one. -/
theorem arithmetic (op : Operation) {slots : Nat} (hslots : seat.slots = slots + 1)
    (source : Value) : P Value ((Body.arithmetic op).read seat source) := by
  have hoperands : Body.operands seat source = do
      let first ← Script.getValue 0 source
      let rest ← ((List.range slots).map Nat.succ).mapM (Script.getValue · source)
      return first :: rest := by
    rw [Body.operands, hslots, List.range_succ_eq_map, List.mapM_cons]
  simp only [Body.read, hoperands, bind_assoc, pure_bind]
  refine closed.bind (closed.getValue (within 0 (by omega)) source) fun first => ?_
  refine closed.bind (closed.mapM fun index hindex => closed.getValue ?_ source) fun rest => ?_
  · obtain ⟨before, hbefore, rfl⟩ := List.mem_map.1 hindex
    rw [List.mem_range] at hbefore
    exact within _ (by omega)
  · refine closed.bind closed.heap fun heap => closed.done fun error h => ?_
    exact .operation (Body.ofOperation_fold h)

section Bare
variable {body : Body} (bare : body.suits seat.slots = false →
  reaches 0 ∧ ∀ {α : Type}, P α (seat.missing 0))
include bare

theorem read (standard : body.isStandard = true) (named : ∀ name ∈ body.callee?, calls name)
    (source : Value) : P Value (body.read seat source) := by
  cases body with
  | const value => exact closed.pure value
  | property name =>
    refine closed.bind closed.heap fun heap => ?_
    cases source with
    | object o =>
      dsimp only
      split
      next => exact closed.pure _
      next => exact closed.fail (.noSuchProperty _ _)
    | _ => exact closed.fail (.noSuchProperty _ _)
  | chain => exact closed.walk within source
  | arithmetic op =>
    cases hslots : seat.slots with
    | zero =>
      have hread : (Body.arithmetic op).read seat source = seat.missing 0 := by
        simp [Body.read, Body.operands, hslots]
      rw [hread]
      exact (bare (by simp [Body.suits, hslots])).2
    | succ slots => exact closed.arithmetic within op hslots source
  | negate =>
    have hfirst : reaches 0 := by
      rcases Nat.eq_zero_or_pos seat.slots with hslots | hslots
      · exact (bare (by simp [Body.suits, hslots])).1
      · exact within 0 hslots
    refine closed.bind (closed.getValue hfirst source) fun value => ?_
    refine closed.bind closed.heap fun heap => closed.done fun error h => ?_
    exact .operation (Value.ofOperation_negate h)
  | list => exact closed.bind (closed.operands within source) closed.newList
  | method name =>
    exact closed.bind (closed.arguments within) fun values => closed.call (named name rfl)
  | staticMethod typeName name =>
    exact closed.bind (closed.arguments within) fun values => closed.call (named name rfl)
  | host host => cases standard

theorem assign (standard : body.isStandard = true) (target value : Value) :
    P Unit (body.assign seat target value) := by
  cases body with
  | property name =>
    cases target with
    | object o => exact closed.withHeap (·.set o name value)
    | _ => exact closed.bind closed.heap fun _ => closed.fail (.operation (.typeMismatch _ _))
  | chain =>
    rw [Body.assign]
    split
    next hslots => exact (bare (by simp [Body.suits, hslots])).2
    next hslots =>
      refine closed.bind (closed.walk (fun index hindex => within index ?_) target) fun holder => ?_
      · omega
      · exact closed.setValue (within _ (by omega)) holder value
  | host host => cases standard
  | _ => exact closed.refuse seat

end Bare

theorem ask {body : Body} (standard : body.isStandard = true) (asked : Question) :
    P Bool (body.ask seat asked) := by
  rcases Body.ask_cases standard seat asked with ⟨answer, h⟩ | ⟨passed, h⟩
  · rw [h]
    exact closed.pure answer
  · rw [h]
    exact closed.allAgree passed fun index hindex => within index (List.mem_range.1 hindex)

end Seat
end Closed
end Script
end ObjectNavigation
