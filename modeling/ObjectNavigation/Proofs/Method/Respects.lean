import ObjectNavigation.Method.Behaviour
import ObjectNavigation.Proofs.Value.Erase

/-!
Method calls up to the identity of lists. A method respects erasing if list identities in its
target, its arguments and the graph make no difference to what it does, but for list identities.
Calls through a registry of such methods have the same outcomes and the same effects on graphs and
journals that are equal after erasing (`Registry.call_respects`). Methods given by behaviours are of
this kind.
-/

namespace ObjectNavigation

namespace Event

def erase : Event → Event
  | hook label name => hook label name
  | read label source heap => read label source.erase heap.erase
  | assign label target value heap => assign label target.erase value.erase heap.erase
  | call label target arguments heap =>
    call label (target.map Value.erase) (arguments.map Value.erase) heap.erase

end Event

namespace Outside

def erase (outside : Outside) : Outside :=
  { outside with heap := outside.heap.erase, journal := outside.journal.map Event.erase }

theorem note_erase (outside : Outside) (event : Event) :
    (outside.note event).erase = outside.erase.note event.erase := by
  simp [note, erase]

theorem heap_eq {left right : Outside} (h : left.erase = right.erase) :
    left.heap.erase = right.heap.erase :=
  congrArg Outside.heap h

theorem withHeap_eq {left right : Outside} (h : left.erase = right.erase) {heap heap' : Heap}
    (hheap : heap.erase = heap'.erase) :
    ({ left with heap } : Outside).erase = ({ right with heap := heap' } : Outside).erase := by
  simp only [erase, Outside.mk.injEq] at h ⊢
  exact ⟨hheap, h.2⟩

end Outside

namespace Invocation

def erase : Invocation → Invocation
  | onTarget target name arguments => onTarget target.erase name (arguments.map Value.erase)
  | onType typeName name arguments => onType typeName name (arguments.map Value.erase)

theorem member_erase (heap : Heap) (call : Invocation) :
    call.erase.member heap.erase = call.member heap := by
  cases call <;> simp [erase, member, Value.typeName_erase]

theorem target?_erase (call : Invocation) : call.erase.target? = call.target?.map Value.erase := by
  cases call <;> rfl

theorem arguments_erase (call : Invocation) :
    call.erase.arguments = call.arguments.map Value.erase := by
  cases call <;> rfl

end Invocation

/-- What the method does depends on list identities in nothing but list identities. -/
def Method.Respects (method : Method) : Prop :=
  ∀ (target target' : Option Value) (arguments arguments' : List Value) (heap heap' : Heap),
    target.map Value.erase = target'.map Value.erase →
    arguments.map Value.erase = arguments'.map Value.erase → heap.erase = heap'.erase →
    (method.run target arguments heap).1.map Value.erase =
        (method.run target' arguments' heap').1.map Value.erase ∧
      (method.run target arguments heap).2.erase = (method.run target' arguments' heap').2.erase

namespace Registry

def Respects (registry : Registry) : Prop :=
  ∀ entry ∈ registry.methods ++ registry.statics, entry.2.Respects

theorem find?_erase (registry : Registry) (heap : Heap) (call : Invocation) :
    registry.find? heap.erase call.erase = registry.find? heap call := by
  have hmember := call.member_erase heap
  cases call <;> simp_all [find?, Invocation.erase]

theorem resolve_erase (registry : Registry) (heap : Heap) (call : Invocation) :
    registry.resolve heap.erase call.erase = registry.resolve heap call := by
  rw [resolve, resolve, find?_erase, Invocation.member_erase]

theorem lookup_mem {table : MethodTable} {member : String} {method : Method}
    (h : table.lookup member = some method) : ∃ entry ∈ table, entry.2 = method := by
  induction table with
  | nil => cases h
  | cons entry rest ih =>
    obtain ⟨other, held⟩ := entry
    rw [List.lookup_cons] at h
    split at h
    next =>
      cases h
      exact ⟨_, List.mem_cons_self, rfl⟩
    next =>
      obtain ⟨found, hfound, hmethod⟩ := ih h
      exact ⟨found, List.mem_cons_of_mem _ hfound, hmethod⟩

theorem Respects.resolve {registry : Registry} (respects : registry.Respects) {heap : Heap}
    {call : Invocation} {method : Method} (h : registry.resolve heap call = .ok method) :
    method.Respects := by
  have hfound : registry.find? heap call = some method := by
    unfold Registry.resolve at h
    simp only at h
    split at h
    next => cases h
    next found hfound =>
      cases hauthorize : registry.authorize (call.member heap) with
      | error cause => rw [hauthorize] at h; cases h
      | ok _ =>
        rw [hauthorize] at h
        cases h
        exact hfound
  obtain ⟨entry, hentry, rfl⟩ : ∃ entry ∈ registry.methods ++ registry.statics,
      entry.2 = method := by
    cases call with
    | onTarget target name arguments =>
      obtain ⟨entry, hentry, hmethod⟩ := lookup_mem hfound
      exact ⟨entry, List.mem_append_left _ hentry, hmethod⟩
    | onType typeName name arguments =>
      obtain ⟨entry, hentry, hmethod⟩ := lookup_mem hfound
      exact ⟨entry, List.mem_append_right _ hentry, hmethod⟩
  exact respects entry hentry

theorem map_mapError {ε ε' α β : Type} (outcome : Except ε α) (kind : ε → ε') (change : α → β) :
    (outcome.mapError kind).map change = (outcome.map change).mapError kind := by
  cases outcome <;> rfl

theorem call_respects {registry : Registry} (respects : registry.Respects)
    {call call' : Invocation} (hcall : call.erase = call'.erase) {outside outside' : Outside}
    (houtside : outside.erase = outside'.erase) :
    (registry.call call outside).1.map Value.erase =
        (registry.call call' outside').1.map Value.erase ∧
      (registry.call call outside).2.erase = (registry.call call' outside').2.erase := by
  have hheap := Outside.heap_eq houtside
  have hmember : call.member outside.heap = call'.member outside'.heap := by
    rw [← call.member_erase, ← call'.member_erase, hcall, hheap]
  have hresolve : registry.resolve outside.heap call = registry.resolve outside'.heap call' := by
    rw [← registry.resolve_erase, ← registry.resolve_erase _ call', hcall, hheap]
  have htarget : call.target?.map Value.erase = call'.target?.map Value.erase := by
    rw [← call.target?_erase, ← call'.target?_erase, hcall]
  have harguments : call.arguments.map Value.erase = call'.arguments.map Value.erase := by
    rw [← call.arguments_erase, ← call'.arguments_erase, hcall]
  simp only [Registry.call, hresolve, hmember]
  cases hfound : registry.resolve outside'.heap call' with
  | error cause => exact ⟨rfl, houtside⟩
  | ok method =>
    obtain ⟨houtcome, hafter⟩ := respects.resolve hfound _ _ _ _ _ _ htarget harguments hheap
    have hnote : (outside.note
          (.call method.label call.target? call.arguments outside.heap)).erase =
        (outside'.note (.call method.label call'.target? call'.arguments outside'.heap)).erase := by
      rw [Outside.note_erase, Outside.note_erase, houtside, Event.erase, Event.erase, htarget,
        harguments, hheap]
    refine ⟨?_, Outside.withHeap_eq hnote hafter⟩
    simp only [run, map_mapError]
    exact congrArg (fun outcome => (Except.mapError HostError.cause outcome).mapError _) houtcome

end Registry

namespace Behaviour

theorem getD_erase (value : Option Value) :
    (value.getD .null).erase = (value.map Value.erase).getD .null := by
  cases value <;> simp

theorem object?_erase (target : Option Value) :
    (target.map Value.erase).bind Value.object? = target.bind Value.object? := by
  rcases target with _ | value
  · rfl
  · cases value <;> simp [Value.object?]

theorem setTarget_erase (name : String) (value : Value) (heap : Heap) (target : Option Value) :
    (setTarget name value heap target).1.erase =
        (setTarget name value.erase heap.erase (target.map Value.erase)).1 ∧
      (setTarget name value heap target).2.erase =
        (setTarget name value.erase heap.erase (target.map Value.erase)).2 := by
  rcases target with _ | held
  · simp [setTarget]
  · cases held <;> simp [setTarget, Heap.set_erase, Heap.get?_erase, getD_erase]

/-- A method given by a behaviour respects erasing. -/
theorem respects_method (behaviour : Behaviour) (label : String) :
    (behaviour.method label).Respects := by
  intro target target' arguments arguments' heap heap' htarget harguments hheap
  have hfirst : (arguments.head?.getD .null).erase = (arguments'.head?.getD .null).erase := by
    rw [getD_erase, getD_erase, ← List.head?_map, ← List.head?_map, harguments]
  cases behaviour with
  | give value => exact ⟨rfl, hheap⟩
  | arguments => exact ⟨by simp [method, run, Heap.newList, Except.map, harguments], hheap⟩
  | firstArgument => exact ⟨congrArg Except.ok hfirst, hheap⟩
  | target =>
    refine ⟨congrArg Except.ok ?_, hheap⟩
    rw [getD_erase, getD_erase, htarget]
  | typeOfTarget =>
    have htype : ∀ (value : Option Value) (graph : Heap),
        value.map (fun value => Value.string (value.typeName graph)) =
          (value.map Value.erase).map fun value => Value.string (value.typeName graph.erase) := by
      intro value graph
      cases value <;> simp [Value.typeName_erase]
    have heq := htype target heap
    rw [htarget, hheap, ← htype target' heap'] at heq
    refine ⟨congrArg Except.ok ?_, hheap⟩
    exact congrArg (fun value => (Option.getD value .null).erase) heq
  | field name =>
    refine ⟨congrArg Except.ok ?_, hheap⟩
    rw [getD_erase, getD_erase, Option.map_bind, Option.map_bind]
    simp only [Function.comp_def, ← Heap.get?_erase]
    rw [← object?_erase target, ← object?_erase target', htarget, hheap]
  | setField name =>
    obtain ⟨hvalue, hafter⟩ := setTarget_erase name (arguments.head?.getD .null) heap target
    obtain ⟨hvalue', hafter'⟩ := setTarget_erase name (arguments'.head?.getD .null) heap' target'
    rw [hfirst, htarget, hheap] at hvalue hafter
    exact ⟨congrArg Except.ok (hvalue.trans hvalue'.symm), hafter.trans hafter'.symm⟩
  | fail message => exact ⟨rfl, hheap⟩
  | failWithin context message => exact ⟨rfl, hheap⟩
  | failLikeDenied permission => exact ⟨rfl, hheap⟩

end Behaviour
end ObjectNavigation
