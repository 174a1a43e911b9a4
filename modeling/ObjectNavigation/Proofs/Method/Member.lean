import ObjectNavigation.Method.Registry
import Mathlib.Data.List.Induction

/-!
Look-up of methods. Type names may contain dots. A name of a method that contains none can be read
back from the full name, so that in a registry built by registrations of such names a call finds
what was registered last for its own type and name, in the table of its form
(`Registry.find?_built`).
-/

namespace ObjectNavigation

def isUndotted (name : String) : Bool :=
  !name.toList.contains '.'

theorem isUndotted_iff {name : String} : isUndotted name = true ↔ '.' ∉ name.toList := by
  simp [isUndotted]

/-- What precedes the last occurrence of a separator and what follows it are determined. -/
theorem append_cons_inj {α : Type} {separator : α} {left right : List α} (hleft : separator ∉ left)
    (hright : separator ∉ right) {front other : List α}
    (h : front ++ separator :: left = other ++ separator :: right) :
    front = other ∧ left = right := by
  rcases List.append_eq_append_iff.1 h with ⟨middle, rfl, hcons⟩ | ⟨middle, rfl, hcons⟩
  · cases middle with
    | nil => exact ⟨(List.append_nil front).symm, (List.cons.inj hcons).2⟩
    | cons first rest =>
      obtain ⟨rfl, rfl⟩ := List.cons.inj hcons
      exact absurd (List.mem_append_right rest List.mem_cons_self) hleft
  · cases middle with
    | nil => exact ⟨List.append_nil other, (List.cons.inj hcons).2.symm⟩
    | cons first rest =>
      obtain ⟨rfl, rfl⟩ := List.cons.inj hcons
      exact absurd (List.mem_append_right rest List.mem_cons_self) hright

theorem memberName_inj {typeName typeName' name name' : String} (h : isUndotted name = true)
    (h' : isUndotted name' = true) :
    memberName typeName name = memberName typeName' name' ↔
      typeName = typeName' ∧ name = name' := by
  constructor
  · intro heq
    have hlist := congrArg String.toList heq
    simp only [memberName, String.toList_append, List.append_assoc] at hlist
    obtain ⟨htype, hname⟩ := append_cons_inj (isUndotted_iff.1 h) (isUndotted_iff.1 h') hlist
    exact ⟨String.toList_inj.1 htype, String.toList_inj.1 hname⟩
  · rintro ⟨rfl, rfl⟩
    rfl

/-- Types that share a dotted prefix do not get in each other's way, names with dots would. -/
example : memberName "a.b" "c" = memberName "a" "b.c" := by decide

namespace Invocation

def name : Invocation → String
  | onTarget _ name _ => name
  | onType _ name _ => name

def typeName (heap : Heap) : Invocation → String
  | onTarget target _ _ => target.typeName heap
  | onType typeName _ _ => typeName

def isStatic : Invocation → Bool
  | onTarget _ _ _ => false
  | onType _ _ _ => true

theorem member_eq (call : Invocation) (heap : Heap) :
    call.member heap = memberName (call.typeName heap) call.name := by
  cases call <;> rfl

end Invocation

structure Registration where
  isStatic : Bool
  typeName : String
  name : String
  method : Method

namespace Registration

def names (entry : Registration) (isStatic : Bool) (typeName name : String) : Bool :=
  entry.isStatic = isStatic ∧ entry.typeName = typeName ∧ entry.name = name

/-- What was registered last for a type and a name, in the table of the form. -/
def latest? (history : List Registration) (isStatic : Bool) (typeName name : String) :
    Option Method :=
  (history.findRev? fun entry => entry.names isStatic typeName name).map method

theorem latest?_concat (history : List Registration) (entry : Registration) (isStatic : Bool)
    (typeName name : String) :
    latest? (history ++ [entry]) isStatic typeName name =
      if entry.names isStatic typeName name then some entry.method
      else latest? history isStatic typeName name := by
  simp only [latest?, List.findRev?_eq_find?_reverse, List.reverse_append, List.reverse_singleton,
    List.singleton_append, List.find?_cons]
  cases entry.names isStatic typeName name <;> rfl

end Registration

namespace Registry

/-- The registry after a history of registrations, first to last. -/
def built (history : List Registration) (policy : Option PermissionSet)
    (hostPolicy : Option HostPolicy) : Registry :=
  history.foldl
    (fun registry entry => registry.register entry.isStatic entry.typeName entry.name entry.method)
    { policy, hostPolicy }

theorem built_concat (history : List Registration) (entry : Registration)
    (policy : Option PermissionSet) (hostPolicy : Option HostPolicy) :
    built (history ++ [entry]) policy hostPolicy =
      (built history policy hostPolicy).register entry.isStatic entry.typeName entry.name
        entry.method := by
  rw [built, built, List.foldl_append]
  rfl

theorem find?_register (registry : Registry) (isStatic : Bool) (typeName name : String)
    (method : Method) (heap : Heap) (call : Invocation) :
    (registry.register isStatic typeName name method).find? heap call =
      if call.isStatic = isStatic ∧ call.member heap = memberName typeName name then some method
      else registry.find? heap call := by
  cases call <;> cases isStatic <;>
    simp [register, find?, Invocation.isStatic, MethodTable.lookup_register]

/-- A call finds what was registered last for its form, its type and its name. -/
theorem find?_built {history : List Registration}
    (undotted : ∀ entry ∈ history, isUndotted entry.name = true) (policy : Option PermissionSet)
    (hostPolicy : Option HostPolicy) (heap : Heap) {call : Invocation}
    (hcall : isUndotted call.name = true) :
    (built history policy hostPolicy).find? heap call =
      Registration.latest? history call.isStatic (call.typeName heap) call.name := by
  induction history using List.reverseRecOn with
  | nil => cases call <;> rfl
  | append_singleton history entry ih =>
    obtain ⟨hhistory, hentry⟩ := List.forall_mem_append.1 undotted
    have hname := hentry entry List.mem_cons_self
    have hnames : (call.isStatic = entry.isStatic ∧
        call.member heap = memberName entry.typeName entry.name) ↔
          entry.names call.isStatic (call.typeName heap) call.name = true := by
      rw [call.member_eq, memberName_inj hcall hname, Registration.names, decide_eq_true_iff]
      simp only [eq_comm]
    rw [built_concat, find?_register, Registration.latest?_concat, ih hhistory]
    simp only [hnames]

theorem decision?_built (history : List Registration) (policy : Option PermissionSet)
    (hostPolicy : Option HostPolicy) :
    (built history policy hostPolicy).decision? =
      decision? { policy, hostPolicy } := by
  induction history using List.reverseRecOn with
  | nil => rfl
  | append_singleton history entry ih =>
    rw [built_concat, ← ih, register]
    cases entry.isStatic <;> rfl

end Registry
end ObjectNavigation
