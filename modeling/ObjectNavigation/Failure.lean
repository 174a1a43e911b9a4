import ObjectNavigation.Node.Kind
import ObjectNavigation.Value.Heap
/-!
The ways in which building and evaluating fail, as causes, and the wording of each. Every failed
method call has one shape, which names the member and keeps the cause.
-/
namespace ObjectNavigation

inductive MethodCause where
  /-- The policy refused the permission. -/
  | denied (permission : String)
  /-- No method is registered for the member. -/
  | unresolved (member : String)
  /-- The method itself, or the lack of a gateway; the text comes with the texts of the errors
  beneath it. -/
  | raised (text : String) (beneath : List String)
  deriving DecidableEq, Inhabited

def deniedText (permission : String) : String :=
  "Permission denied: " ++ permission

/-- A name in a message, between grave accents. -/
def marked (name : String) : String :=
  "\x60" ++ name ++ "\x60"

namespace MethodCause

def message : MethodCause → String
  | denied permission => deniedText permission
  | unresolved member => "No such method " ++ marked member
  | raised text _ => text

/-- The texts of the cause and of what is beneath it, outermost first. -/
def chain : MethodCause → List String
  | raised text beneath => text :: beneath
  | cause => [cause.message]

end MethodCause

/-- An error of host code: its text, and the texts of the errors beneath it. -/
structure HostError where
  text : String
  beneath : List String := []
  deriving DecidableEq, Inhabited

/-- Whatever error host code raises, it is neither a refusal nor a failed look-up. -/
def HostError.cause (error : HostError) : MethodCause :=
  .raised error.text error.beneath

structure MethodFailure where
  member : String
  cause : MethodCause
  deriving DecidableEq, Inhabited

namespace MethodFailure

def message (failure : MethodFailure) : String :=
  "Method " ++ marked failure.member ++ " failed: " ++ failure.cause.message

def isDenied (failure : MethodFailure) : Bool :=
  match failure.cause with
  | .denied _ => true
  | _ => false

def isUnresolved (failure : MethodFailure) : Bool :=
  match failure.cause with
  | .unresolved _ => true
  | _ => false

end MethodFailure

inductive EvalError where
  /-- The node cannot be assigned to. -/
  | inappropriate (kind : Kind) (expression : String)
  | method (failure : MethodFailure)
  | noSuchProperty (name typeName : String)
  | typeMismatch (expected got : String)
  | invalidOperands (operator left right : String)
  | overflow (operator : String)
  | divisionByZero
  | missingChild (kind : Kind) (index : Nat)
  deriving DecidableEq, Inhabited

namespace EvalError

def unexpected (heap : Heap) (expected : String) (found : Value) : EvalError :=
  typeMismatch expected (found.typeName heap)

def message : EvalError → String
  | inappropriate kind expression =>
    "Inappropriate expression: " ++ marked expression ++ " (" ++ kind.name ++
      ") cannot be assigned to"
  | method failure => failure.message
  | noSuchProperty name typeName => "No such property " ++ marked name ++ " on " ++ typeName
  | typeMismatch expected got => "Type error: expected " ++ expected ++ ", got " ++ got
  | invalidOperands operator left right =>
    "Invalid operands for " ++ marked operator ++ ": " ++ left ++ " and " ++ right
  | overflow operator => "Integer overflow in " ++ marked operator
  | divisionByZero => "Division by zero"
  | missingChild kind index => kind.name ++ " node is missing child " ++ toString index

def isInappropriate : EvalError → Bool
  | inappropriate _ _ => true
  | _ => false

end EvalError

/-- A use of something that is not there. It is a fault of the host, and not an outcome: no
expression, body or method can go on after it. -/
inductive Misuse where
  | noSuchNode (id : NodeId)
  | noSuchSlot (kind : Kind) (index slots : Nat)
  | noSuchTree
  /-- Accessors that lead to each other without end. -/
  | endlessDelegation
  deriving DecidableEq, Inhabited

namespace Misuse

def message : Misuse → String
  | noSuchNode id => "node " ++ NodeId.text id ++ " is not part of this tree"
  | noSuchSlot kind index slots =>
    "child index " ++ toString index ++ " out of range for " ++ kind.name ++ " node with " ++
      toString slots ++ " children"
  | noSuchTree => "no such tree"
  | endlessDelegation => "accessors delegate without end"

end Misuse

inductive BuildError where
  | unknownNode (node : NodeId)
  | notOpen (node : NodeId)
  | alreadyClosed (node : NodeId)
  | alreadyAttached (child parent : NodeId)
  | selfReference (node : NodeId)
  | unclosed (node : NodeId)
  | inconsistent (node : NodeId) (expected actual : Nat)
  deriving DecidableEq, Inhabited

namespace BuildError

def message : BuildError → String
  | unknownNode node => "Unknown node " ++ node.text
  | notOpen node => "Node " ++ node.text ++ " is not open for construction"
  | alreadyClosed node => "Node " ++ node.text ++ " is already closed"
  | alreadyAttached child parent =>
    "Node " ++ child.text ++ " already has parent " ++ parent.text
  | selfReference node => "Node " ++ node.text ++ " cannot be attached to itself"
  | unclosed node => "Node " ++ node.text ++ " was never closed"
  | inconsistent node expected actual =>
    "Internal consistency failure flattening node " ++ node.text ++ ": " ++ toString actual ++
      " != " ++ toString expected

end BuildError
end ObjectNavigation
