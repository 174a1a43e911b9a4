import ObjectNavigation.Failure
/-!
Permissions to invoke methods. A permission name is a path of segments between dots. A name that
is a star, or ends in a dot and a star, stands for everything below what precedes the star, and
grants no name that stops there. Actions are carried along and play no part in what is granted.
-/
namespace ObjectNavigation

structure Permission where
  name : String
  actions : Option String := none
  deriving DecidableEq, Inhabited

namespace Permission

def ofName? (name : String) (actions : Option String := none) : Option Permission :=
  if name.isEmpty then none else some ⟨name, actions⟩

def emptyName : String := "Permission name is empty"

/-- What every permission to invoke a member begins with. -/
def authority : String := "invoke"

/-- The permission that is needed to invoke `member`. -/
def forMember (member : String) : Permission where
  name := authority ++ "." ++ member

def isWildcard (permission : Permission) : Bool :=
  permission.name == "*" || ['.', '*'].isSuffixOf permission.name.toList

/-- The name without the star that ends it, the dot before the star kept. -/
def stem (permission : Permission) : List Char :=
  let name := permission.name.toList
  if name.getLast? = some '*' then name.dropLast else name

/-- Whether holding `granted` grants `wanted`. -/
def implies (granted wanted : Permission) : Bool :=
  match granted.isWildcard, wanted.isWildcard with
  | true, true => granted.stem.isPrefixOf wanted.stem
  | true, false =>
    granted.stem.length < wanted.name.toList.length &&
      granted.stem.isPrefixOf wanted.name.toList
  | false, true => false
  | false, false => granted.name == wanted.name

def text (permission : Permission) : String :=
  permission.name ++ match permission.actions with
    | some actions => " [" ++ actions ++ "]"
    | none => ""

end Permission

/-- A policy that grants exactly the permissions it holds. -/
structure PermissionSet where
  granted : List Permission := []
  deriving Inhabited

namespace PermissionSet

def implies (policy : PermissionSet) (wanted : Permission) : Bool :=
  policy.granted.any (·.implies wanted)

theorem implies_iff {policy : PermissionSet} {wanted : Permission} :
    policy.implies wanted ↔ ∃ granted ∈ policy.granted, granted.implies wanted := by
  simp [implies, List.any_eq_true]

/-- Refuses with the name of the permission that is not granted. -/
def check (policy : PermissionSet) (wanted : Permission) : Except String Unit :=
  if policy.implies wanted then .ok () else .error wanted.name

end PermissionSet

structure HostPolicy where
  /-- Refuses with the name of a permission. -/
  check : Permission → Except String Unit
  /-- The policy as a diagnostic. -/
  text : String

end ObjectNavigation
