import ObjectNavigation.Node.Body
import ObjectNavigation.Proofs.Method.Respects
import ObjectNavigation.Proofs.Outcome

/-!
Scripts up to the identity of lists. Two scripts are similar if they take the same steps with values
that are equal after erasing, as long as they get answers that are. The scripts by which the
reference bodies read and assign are similar for similar sources, targets and values
(`Body.similar_read`, `Body.similar_assign`).
-/

namespace ObjectNavigation

namespace Value

def Same (left right : Value) : Prop :=
  left.erase = right.erase

def AllSame (left right : List Value) : Prop :=
  left.map erase = right.map erase

theorem same_equivalence : Equivalence Same :=
  ⟨fun _ => rfl, Eq.symm, Eq.trans⟩

end Value

theorem alike_mapError {ε : Type} (kind : ε → EvalError) {left right : Except ε Value}
    (h : left.map Value.erase = right.map Value.erase) :
    Alike Value.Same (left.mapError kind) (right.mapError kind) := by
  cases left with
  | error error =>
    cases right with
    | error other => cases h; exact .error (kind error)
    | ok value => cases h
  | ok value =>
    cases right with
    | error error => cases h
    | ok other => exact .ok (Except.ok.inj h)

theorem alike_same_iff {left right : Except EvalError Value} :
    Alike Value.Same left right ↔ left.map Value.erase = right.map Value.erase := by
  constructor
  · rintro (h | error)
    · exact congrArg Except.ok h
    · rfl
  · intro h
    cases left <;> cases right <;> exact alike_mapError id h

namespace Surface

def erase (surface : Surface) : Surface where
  outside := surface.outside.erase
  settings := { surface.settings with root := surface.settings.root.erase }

theorem heap_eq {left right : Surface} (h : left.erase = right.erase) :
    left.heap.erase = right.heap.erase :=
  congrArg heap h

theorem root_eq {left right : Surface} (h : left.erase = right.erase) :
    left.settings.root.erase = right.settings.root.erase :=
  congrArg (fun surface : Surface => surface.settings.root) h

theorem outside_eq {left right : Surface} (h : left.erase = right.erase) :
    left.outside.erase = right.outside.erase :=
  congrArg outside h

theorem withOutside_eq {left right : Surface} (h : left.erase = right.erase)
    {outside outside' : Outside} (houtside : outside.erase = outside'.erase) :
    ({ left with outside } : Surface).erase =
      ({ right with outside := outside' } : Surface).erase := by
  simp only [erase, Surface.mk.injEq] at h ⊢
  exact ⟨houtside, h.2⟩

theorem withHeap_eq {left right : Surface} (h : left.erase = right.erase) {heap heap' : Heap}
    (hheap : heap.erase = heap'.erase) :
    (left.withHeap heap).erase = (right.withHeap heap').erase :=
  withOutside_eq h (Outside.withHeap_eq (outside_eq h) hheap)

end Surface

namespace Script
variable {C α β : Type} {same : α → α → Prop} {same' : β → β → Prop}

inductive Similar (same : α → α → Prop) : Script C α → Script C α → Prop where
  | done {outcome outcome' : Except EvalError α} (h : Alike same outcome outcome') :
      Similar same (.done outcome) (.done outcome')
  | get {child : C} {source source' : Value} {next next' : Except EvalError Value → Script C α}
      (hsource : source.erase = source'.erase)
      (follow : ∀ answer answer', Alike Value.Same answer answer' →
        Similar same (next answer) (next' answer')) :
      Similar same (.get child source next) (.get child source' next')
  | set {child : C} {target target' value value' : Value}
      {next next' : Except EvalError Unit → Script C α} (htarget : target.erase = target'.erase)
      (hvalue : value.erase = value'.erase)
      (follow : ∀ answer, Similar same (next answer) (next' answer)) :
      Similar same (.set child target value next) (.set child target' value' next')
  | invoke {call call' : Invocation} {next next' : Except EvalError Value → Script C α}
      (hcall : call.erase = call'.erase)
      (follow : ∀ answer answer', Alike Value.Same answer answer' →
        Similar same (next answer) (next' answer')) :
      Similar same (.invoke call next) (.invoke call' next')
  | look {next next' : Surface → Script C α}
      (follow : ∀ surface surface', surface.erase = surface'.erase →
        Similar same (next surface) (next' surface')) :
      Similar same (.look next) (.look next')
  | alter {change change' : Surface → Surface} {next next' : Script C α}
      (hchange : ∀ surface surface', surface.erase = surface'.erase →
        (change surface).erase = (change' surface').erase)
      (follow : Similar same next next') :
      Similar same (.alter change next) (.alter change' next')

theorem Similar.andThen {script script' : Script C α} (h : Similar same script script')
    {next next' : Except EvalError α → Script C β}
    (follow : ∀ answer answer', Alike same answer answer' →
      Similar same' (next answer) (next' answer')) :
    Similar same' (script.andThen next) (script'.andThen next') := by
  induction h with
  | done h => exact follow _ _ h
  | get source _ ih => exact .get source ih
  | set target value _ ih => exact .set target value ih
  | invoke call _ ih => exact .invoke call ih
  | look _ ih => exact .look ih
  | alter change _ ih => exact .alter change ih

theorem Similar.pure {left right : α} (h : same left right) :
    Similar same (Pure.pure left : Script C α) (Pure.pure right) :=
  .done (.ok h)

theorem Similar.fail (error : EvalError) :
    Similar same (Script.fail error : Script C α) (Script.fail error) :=
  .done (.error error)

theorem Similar.bind {script script' : Script C α} (h : Similar same script script')
    {next next' : α → Script C β}
    (follow : ∀ left right, same left right → Similar same' (next left) (next' right)) :
    Similar same' (script >>= next) (script' >>= next') := by
  refine h.andThen fun answer answer' halike => ?_
  cases halike with
  | ok h => exact follow _ _ h
  | error error => exact .fail error

theorem Similar.getValue (child : C) {source source' : Value}
    (h : source.erase = source'.erase) :
    Similar Value.Same (Script.getValue child source) (Script.getValue child source') :=
  .get h fun _ _ halike => .done halike

theorem Similar.setValue (child : C) {target target' value value' : Value}
    (htarget : target.erase = target'.erase) (hvalue : value.erase = value'.erase) :
    Similar Eq (Script.setValue child target value) (Script.setValue child target' value') :=
  .set htarget hvalue fun _ => .done (alike_eq_iff.2 rfl)

theorem Similar.call {call call' : Invocation} (h : call.erase = call'.erase) :
    Similar Value.Same (Script.call call : Script C Value) (Script.call call') :=
  .invoke h fun _ _ halike => .done halike

theorem Similar.surface :
    Similar (fun left right => left.erase = right.erase) (Script.surface : Script C Surface)
      Script.surface :=
  .look fun _ _ h => .pure h

theorem Similar.heap :
    Similar (fun left right => left.erase = right.erase) (Script.heap : Script C Heap)
      Script.heap :=
  .look fun _ _ h => .pure (Surface.heap_eq h)

theorem Similar.newList {items items' : List Value} (h : Value.AllSame items items') :
    Similar Value.Same (Script.newList items : Script C Value) (Script.newList items') := by
  refine Similar.heap.bind fun heap heap' hheap => ?_
  have hchange : Similar Eq (Script.change (·.withHeap (heap.newList items).2) : Script C Unit)
      (Script.change (·.withHeap (heap'.newList items').2)) :=
    .alter (fun _ _ hsurface => Surface.withHeap_eq hsurface hheap) (.pure rfl)
  refine hchange.bind fun _ _ _ => .pure ?_
  simp only [Value.Same, Value.erase_list]
  exact congrArg (Value.list 0) h

end Script

/-! ### Reference bodies -/

/-- What is told about a node does not depend on the identity of lists. -/
def Seat.Respects (seat : Seat) : Prop :=
  ∀ heap heap' : Heap, heap.erase = heap'.erase → seat.text heap = seat.text heap'

namespace Body
open Script (Similar)

theorem similar_mapM (indices : List Nat) {source source' : Value}
    (h : source.erase = source'.erase) :
    Similar Value.AllSame (indices.mapM (Script.getValue · source))
      (indices.mapM (Script.getValue · source')) := by
  induction indices with
  | nil => exact .pure rfl
  | cons index rest ih =>
    rw [List.mapM_cons, List.mapM_cons]
    refine (Similar.getValue index h).bind fun value value' hvalue => ?_
    refine ih.bind fun values values' hvalues => .pure ?_
    rw [Value.AllSame, List.map_cons, List.map_cons, hvalues]
    exact congrArg (· :: _) hvalue

theorem similar_operands (seat : Seat) {source source' : Value}
    (h : source.erase = source'.erase) :
    Similar Value.AllSame (operands seat source) (operands seat source') :=
  similar_mapM _ h

theorem similar_walk (links : Nat) {source source' : Value} (h : source.erase = source'.erase) :
    Similar Value.Same (walk links source) (walk links source') := by
  unfold walk
  generalize List.range links = indices
  induction indices generalizing source source' with
  | nil => exact .pure h
  | cons index rest ih =>
    rw [List.foldlM_cons, List.foldlM_cons]
    exact (Similar.getValue index h).bind fun value value' hvalue => ih hvalue

theorem fold_erase (op : Operation) (heap : Heap) (value : Value) (rest : List Value) :
    fold op heap.erase value.erase (rest.map Value.erase) =
      (fold op heap value rest).map Value.erase := by
  induction rest generalizing value with
  | nil => rfl
  | cons next rest ih =>
    simp only [List.map_cons, fold, Operation.apply_erase]
    cases h : op.apply heap value next with
    | error error => rfl
    | ok result =>
      have hresult := ih result
      rw [Operation.erase_of_apply h] at hresult
      exact hresult

theorem alike_fold (op : Operation) {heap heap' : Heap} (hheap : heap.erase = heap'.erase)
    {value value' : Value} (hvalue : value.erase = value'.erase) {rest rest' : List Value}
    (hrest : Value.AllSame rest rest') :
    Alike Value.Same (fold op heap value rest) (fold op heap' value' rest') := by
  rw [alike_same_iff, ← fold_erase, ← fold_erase, hheap, hvalue, hrest]

theorem similar_arguments (seat : Seat) :
    Similar Value.AllSame (arguments seat) (arguments seat) :=
  Similar.surface.bind fun _ _ h => similar_operands seat (Surface.root_eq h)

theorem similar_property (seat : Seat) (name : String) {source source' : Value}
    (h : source.erase = source'.erase) :
    Similar Value.Same ((property name).read seat source) ((property name).read seat source') := by
  refine Similar.heap.bind fun heap heap' hheap => ?_
  have htype : source.typeName heap = source'.typeName heap' := by
    rw [← Value.typeName_erase, h, hheap, Value.typeName_erase]
  rw [htype]
  cases source <;> cases source' <;> simp at h
  case object.object o o' =>
    subst h
    have hfield : (heap.get? o name).map Value.erase = (heap'.get? o name).map Value.erase := by
      rw [← Heap.get?_erase, ← Heap.get?_erase, hheap]
    simp only
    cases hleft : heap.get? o name <;> cases hright : heap'.get? o name <;>
      simp only [hleft, hright, Option.map_none, Option.map_some, reduceCtorEq] at hfield ⊢
    · exact .fail _
    · exact .pure (Option.some.inj hfield)
  all_goals exact .fail _

theorem similar_read {body : Body} (reference : ∀ host, body ≠ .host host) (seat : Seat)
    {source source' : Value} (h : source.erase = source'.erase) :
    Similar Value.Same (body.read seat source) (body.read seat source') := by
  cases body with
  | const value => exact .pure rfl
  | property name => exact similar_property seat name h
  | chain => exact similar_walk _ h
  | arithmetic op =>
    refine (similar_operands seat h).bind fun values values' hvalues => ?_
    cases values <;> cases values' <;> simp [Value.AllSame] at hvalues
    · exact .fail _
    · exact Similar.heap.bind fun heap heap' hheap =>
        .done (alike_fold op hheap hvalues.1 hvalues.2)
  | negate =>
    refine (Similar.getValue 0 h).bind fun value value' hvalue => ?_
    refine Similar.heap.bind fun heap heap' hheap => .done ?_
    have heq : value.negate heap = value'.negate heap' := by
      rw [← Value.negate_erase, hvalue, hheap, Value.negate_erase]
    rw [heq, alike_same_iff]
  | list => exact (similar_operands seat h).bind fun _ _ => .newList
  | method name =>
    refine (similar_arguments seat).bind fun values values' hvalues => .call ?_
    rw [Invocation.erase, Invocation.erase, h, hvalues]
  | staticMethod typeName name =>
    refine (similar_arguments seat).bind fun values values' hvalues => .call ?_
    rw [Invocation.erase, Invocation.erase, hvalues]
  | host host => exact absurd rfl (reference host)

theorem similar_refuse {seat : Seat} (respects : seat.Respects) {α : Type} {same : α → α → Prop} :
    Similar same (seat.refuse : BodyScript α) seat.refuse := by
  refine Similar.heap.bind fun heap heap' hheap => ?_
  rw [respects heap heap' hheap]
  exact .fail _

theorem similar_assign {body : Body} (reference : ∀ host, body ≠ .host host) {seat : Seat}
    (respects : seat.Respects) {target target' value value' : Value}
    (htarget : target.erase = target'.erase) (hvalue : value.erase = value'.erase) :
    Similar Eq (body.assign seat target value) (body.assign seat target' value') := by
  cases body with
  | property name =>
    have hother : Similar Eq
        (do Script.fail (.unexpected (← Script.heap) "object" target) : BodyScript Unit)
        (do Script.fail (.unexpected (← Script.heap) "object" target')) := by
      refine Similar.heap.bind fun heap heap' hheap => ?_
      have htype : target.typeName heap = target'.typeName heap' := by
        rw [← Value.typeName_erase, htarget, hheap, Value.typeName_erase]
      rw [EvalError.unexpected, htype]
      exact .fail _
    cases target <;> cases target' <;> simp at htarget
    case object.object o o' =>
      subst htarget
      refine .alter (fun surface surface' h => Surface.withHeap_eq h ?_) (.pure rfl)
      rw [Heap.set_erase, Heap.set_erase, Surface.heap_eq h, hvalue]
    all_goals exact hother
  | chain =>
    simp only [assign]
    split
    next => exact .fail _
    next => exact (similar_walk _ htarget).bind fun _ _ h => .setValue _ h hvalue
  | host host => exact absurd rfl (reference host)
  | const _ | arithmetic _ | negate | list | method _ | staticMethod _ _ =>
    exact similar_refuse respects

end Body
end ObjectNavigation
