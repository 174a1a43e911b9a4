import ObjectNavigation.Permission
import ObjectNavigation.Text.Quoted
import ObjectNavigation.Script.Basic
/-!
The registry through which methods are called. Methods of values are kept under the type of the
target, methods of types under an explicit type name, each as `type.method`; what is registered
later under one name replaces what was there. A call is first looked up, then put to the policy
if there is one, and only then run.
-/
namespace ObjectNavigation

/-- A method of the host: a function of the target, if it is not static, the arguments and the
object graph. -/
structure Method where
  /-- Stands for the method in the journal. -/
  label : String
  run : Option Value → List Value → Heap → Except HostError Value × Heap

abbrev MethodTable := List (String × Method)

namespace MethodTable

def register (member : String) (method : Method) : MethodTable → MethodTable
  | [] => [(member, method)]
  | (other, held) :: rest =>
    if other = member then (member, method) :: rest
    else (other, held) :: register member method rest

theorem lookup_register (member key : String) (method : Method) (table : MethodTable) :
    (table.register member method).lookup key =
      if key = member then some method else table.lookup key := by
  induction table with
  | nil => by_cases h : key = member <;> simp [register, List.lookup_cons, h, beq_eq_false_iff_ne.2]
  | cons entry rest ih =>
    obtain ⟨other, held⟩ := entry
    by_cases ho : other = member
    · subst ho
      by_cases hk : key = other
      · simp [register, hk]
      · simp [register, List.lookup_cons, hk, beq_eq_false_iff_ne.2 hk]
    · by_cases hk : key = other
      · subst hk
        simp [register, ho]
      · simp [register, ho, List.lookup_cons, beq_eq_false_iff_ne.2 hk, ih]

end MethodTable

def memberName (typeName name : String) : String :=
  typeName ++ "." ++ name

structure Registry where
  methods : MethodTable := []
  statics : MethodTable := []
  policy : Option PermissionSet := none
  /-- Takes the place of a set of permissions. -/
  hostPolicy : Option HostPolicy := none
  deriving Inhabited

namespace Invocation

def member (heap : Heap) : Invocation → String
  | onTarget target name _ => memberName (target.typeName heap) name
  | onType typeName name _ => memberName typeName name

def target? : Invocation → Option Value
  | onTarget target _ _ => some target
  | onType _ _ _ => none

def arguments : Invocation → List Value
  | onTarget _ _ arguments => arguments
  | onType _ _ arguments => arguments

end Invocation

namespace Registry

def register (registry : Registry) (isStatic : Bool) (typeName name : String) (method : Method) :
    Registry :=
  let member := memberName typeName name
  if isStatic then { registry with statics := registry.statics.register member method }
  else { registry with methods := registry.methods.register member method }

def find? (registry : Registry) (heap : Heap) (call : Invocation) : Option Method :=
  match call with
  | .onTarget _ _ _ => registry.methods.lookup (call.member heap)
  | .onType _ _ _ => registry.statics.lookup (call.member heap)

/-- How the policy, if there is one, decides about a permission. -/
def decision? (registry : Registry) : Option (Permission → Except String Unit) :=
  (registry.hostPolicy.map HostPolicy.check).or (registry.policy.map PermissionSet.check)

def authorize (registry : Registry) (member : String) : Except MethodCause Unit :=
  match registry.decision? with
  | none => .ok ()
  | some decide => (decide (.forMember member)).mapError .denied

def resolve (registry : Registry) (heap : Heap) (call : Invocation) :
    Except MethodCause Method := do
  let member := call.member heap
  match registry.find? heap call with
  | none => .error (.unresolved member)
  | some method => do
    registry.authorize member
    return method

def run (method : Method) (call : Invocation) (outside : Outside) :
    Except MethodCause Value × Outside :=
  let outside :=
    outside.note (.call method.label call.target? call.arguments outside.heap)
  let (outcome, heap) := method.run call.target? call.arguments outside.heap
  (outcome.mapError HostError.cause, { outside with heap })

/-- Calls a method. Whatever goes wrong names the member. -/
def call (registry : Registry) (call : Invocation) (outside : Outside) :
    Except MethodFailure Value × Outside :=
  let member := call.member outside.heap
  let (outcome, outside) := match registry.resolve outside.heap call with
    | .ok method => run method call outside
    | .error cause => (.error cause, outside)
  (outcome.mapError fun cause => { member, cause }, outside)

def debug (registry : Registry) : String :=
  let policy := match registry.hostPolicy, registry.policy with
    | some policy, _ => "Some(" ++ policy.text ++ ")"
    | none, none => "None"
    | none, some policy =>
      "Some(PermissionSet \x7b granted: [" ++
        ", ".intercalate (policy.granted.map fun permission =>
          "InvokePermission \x7b name: " ++ quoted permission.name ++ ", actions: " ++
            (match permission.actions with
              | none => "None"
              | some actions => "Some(" ++ quoted actions ++ ")") ++ " \x7d") ++ "] \x7d)"
  "MethodRegistry \x7b methods: " ++ toString registry.methods.length ++ ", static_methods: " ++
    toString registry.statics.length ++ ", policy: " ++ policy ++ " \x7d"

end Registry
end ObjectNavigation
