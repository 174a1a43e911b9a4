import ObjectNavigation.Script.Basic
import ObjectNavigation.Value.Arithmetic
/-!
What a node does. A body is one of the reference forms (constants, properties, chains,
arithmetic, lists, method calls) or belongs to the host. It reads, assigns and answers questions
by scripts that reach the child slots of its node; it knows of its node only what a `Seat` tells.

A chain hands the value of each link to the next; operators and lists evaluate all their children
against one source, in order, before they do anything with the values; the arguments of a method
are evaluated against the root.
-/
namespace ObjectNavigation

/-- What a body is told about its node: the number of child slots, and the text of the node. -/
structure Seat where
  kind : Kind
  slots : Nat
  text : Heap → String

/-- A script of a node body; it reaches the child slots by number. -/
abbrev BodyScript := Script Nat

namespace Seat

def refuse {α : Type} (seat : Seat) : BodyScript α := do
  Script.fail (.inappropriate seat.kind (seat.text (← Script.heap)))

def missing {α : Type} (seat : Seat) (index : Nat) : BodyScript α :=
  Script.fail (.missingChild seat.kind index)

end Seat

/-- A node body of the host. All but its kind and how it reads may be left out. -/
structure HostBody where
  kind : Kind
  read : Seat → Value → BodyScript Value
  assign : Seat → Value → Value → BodyScript Unit := fun seat _ _ => seat.refuse
  /-- Whether the node is constant without regard to its children. -/
  ownConstant : Seat → BodyScript Bool := fun _ => pure false
  constant : Seat → BodyScript Bool := ownConstant
  /-- Whether the node alone is a plain property read. -/
  ownSimple : Seat → BodyScript Bool := fun _ => pure false
  simpleProperty : Seat → BodyScript Bool := ownSimple
  simpleChain : Seat → BodyScript Bool := simpleProperty
  /-- Whether the node absorbs children of its kind when it closes. -/
  flattens : Bool := false
  /-- The text of the node; the name of its kind if none is given. -/
  text : Option String := none

inductive Body where
  | const (value : Value)
  | property (name : String)
  | chain
  | arithmetic (operation : Operation)
  | negate
  | list
  | method (name : String)
  | staticMethod (typeName name : String)
  | host (body : HostBody)

namespace Operation

def kind : Operation → Kind
  | add => .add
  | subtract => .subtract
  | multiply => .multiply
  | divide => .divide

end Operation

namespace Body

def kind : Body → Kind
  | const _ => .const
  | property _ => .property
  | chain => .chain
  | arithmetic op => op.kind
  | negate => .negate
  | list => .list
  | method _ => .method
  | staticMethod _ _ => .staticMethod
  | host body => body.kind

/-- Whether a closing node absorbs its children of the same kind. -/
def flattens : Body → Bool
  | chain | arithmetic .add | arithmetic .multiply => true
  | host body => body.flattens
  | _ => false

def operands (seat : Seat) (source : Value) : BodyScript (List Value) :=
  (List.range seat.slots).mapM (Script.getValue · source)

/-- The value at the end of the first `links` links. -/
def walk (links : Nat) (source : Value) : BodyScript Value :=
  (List.range links).foldlM (fun value index => Script.getValue index value) source

def fold (op : Operation) (heap : Heap) : Value → List Value → Except EvalError Value
  | value, [] => .ok value
  | value, next :: rest => do fold op heap (← op.apply heap value next) rest

def arguments (seat : Seat) : BodyScript (List Value) := do
  operands seat (← Script.surface).settings.root

def read (body : Body) (seat : Seat) (source : Value) : BodyScript Value :=
  match body with
  | const value => pure value
  | property name => do
    let heap ← Script.heap
    let missing := EvalError.noSuchProperty name (source.typeName heap)
    match source with
    | .object o =>
      match heap.get? o name with
      | some value => pure value
      | none => Script.fail missing
    | _ => Script.fail missing
  | chain => walk seat.slots source
  | arithmetic op => do
    match ← operands seat source with
    | [] => seat.missing 0
    | value :: rest => .done (fold op (← Script.heap) value rest)
  | negate => do
    let value ← Script.getValue 0 source
    .done (value.negate (← Script.heap))
  | list => do Script.newList (← operands seat source)
  | method name => do Script.call (.onTarget source name (← arguments seat))
  | staticMethod typeName name => do Script.call (.onType typeName name (← arguments seat))
  | host body => body.read seat source

def assign (body : Body) (seat : Seat) (target value : Value) : BodyScript Unit :=
  match body with
  | property name =>
    match target with
    | .object o => Script.change fun surface => surface.withHeap (surface.heap.set o name value)
    | _ => do Script.fail (.unexpected (← Script.heap) "object" target)
  | chain =>
    if seat.slots = 0 then seat.missing 0
    else do Script.setValue (seat.slots - 1) (← walk (seat.slots - 1) target) value
  | host body => body.assign seat target value
  | _ => seat.refuse

/-- Asks the slots in turn; the first that does not agree ends it. -/
def allAgree (question : Question) : List Nat → BodyScript Bool
  | [] => pure true
  | slot :: rest => do
    if ← Script.question slot question then allAgree question rest else pure false

/-- Whether the node is constant without regard to its children. -/
def ownConstant (body : Body) (seat : Seat) : BodyScript Bool :=
  match body with
  | const _ => pure true
  | list => pure (seat.slots = 0)
  | host body => body.ownConstant seat
  | _ => pure false

/-- Whether all slots hold constant nodes; a node without slots answers for itself. -/
def slotsConstant (seat : Seat) (own : BodyScript Bool) : BodyScript Bool :=
  if seat.slots = 0 then own else allAgree .constant (List.range seat.slots)

def childrenConstant (body : Body) (seat : Seat) : BodyScript Bool :=
  slotsConstant seat (body.ownConstant seat)

def constant (body : Body) (seat : Seat) : BodyScript Bool :=
  match body with
  | arithmetic _ | negate | list => body.childrenConstant seat
  | host body => body.constant seat
  | _ => body.ownConstant seat

def simpleProperty (body : Body) (seat : Seat) : BodyScript Bool :=
  match body with
  | property _ => pure true
  | host body => body.simpleProperty seat
  | _ => pure false

def simpleChain (body : Body) (seat : Seat) : BodyScript Bool :=
  match body with
  | chain =>
    if seat.slots = 0 then pure false else allAgree .simpleProperty (List.range seat.slots)
  | host body => body.simpleChain seat
  | _ => body.simpleProperty seat

def ask (body : Body) (seat : Seat) : Question → BodyScript Bool
  | .constant => body.constant seat
  | .childrenConstant => body.childrenConstant seat
  | .simpleProperty => body.simpleProperty seat
  | .simpleChain => body.simpleChain seat

end Body
end ObjectNavigation
