import ObjectNavigation.Context
import ObjectNavigation.Method.Registry
/-!
The state that an evaluation reads and changes: everything outside the engine, the constants
found so far, and the context. An evaluation is a function of that state; a failure changes the
state like a success does. A misuse cuts it short, and leaves the state as it is at that moment.
-/
namespace ObjectNavigation

abbrev TreeId := Nat

structure Cell where
  /-- The node has been asked whether it is constant. -/
  checked : Bool := false
  /-- Its value, once it has been found constant and evaluated. -/
  value : Option Value := none
  deriving Inhabited

structure Constants where
  cell : TreeId → NodeId → Cell := fun _ _ => {}

namespace Constants

def put (constants : Constants) (tree : TreeId) (node : NodeId) (cell : Cell) : Constants where
  cell := fun t n => if t = tree ∧ n = node then cell else constants.cell t n

@[simp] theorem cell_put (constants : Constants) (tree : TreeId) (node : NodeId) (cell : Cell)
    (t : TreeId) (n : NodeId) :
    (constants.put tree node cell).cell t n =
      if t = tree ∧ n = node then cell else constants.cell t n := rfl

def check (constants : Constants) (tree : TreeId) (node : NodeId) : Constants :=
  constants.put tree node { constants.cell tree node with checked := true }

/-- Keeps the value of a constant node; a value kept before stays. -/
def keep (constants : Constants) (tree : TreeId) (node : NodeId) (value : Value) : Constants :=
  match (constants.cell tree node).value with
  | some _ => constants
  | none => constants.put tree node { constants.cell tree node with value := some value }

end Constants

structure World where
  outside : Outside := {}
  constants : Constants := {}
  context : Context := {}

namespace World

def heap (world : World) : Heap := world.outside.heap

def surface (world : World) : Surface :=
  ⟨world.outside, world.context.settings⟩

def withSurface (world : World) (surface : Surface) : World :=
  { world with
    outside := surface.outside
    context := { world.context with settings := surface.settings } }

def withTrace (world : World) (trace : Trace) : World :=
  { world with context := { world.context with trace } }

def visit (world : World) (node : NodeId) (object : Value) : World :=
  { world with context := world.context.visit node object }

end World

/-- A computation in the engine: its outcome, unless a misuse cuts it short. -/
abbrev Eval (α : Type) := World → Except Misuse (Except EvalError α) × World

namespace Eval
variable {α β : Type}

def finish (outcome : Except EvalError α) : Eval α := fun world =>
  (.ok outcome, world)

def misuse (misuse : Misuse) : Eval α := fun world =>
  (.error misuse, world)

def andThen (act : Eval α) (next : Except EvalError α → Eval β) : Eval β := fun world =>
  match act world with
  | (.ok outcome, after) => next outcome after
  | (.error misuse, after) => (.error misuse, after)

@[simp] theorem finish_andThen (outcome : Except EvalError α)
    (next : Except EvalError α → Eval β) : (finish outcome).andThen next = next outcome := rfl

@[simp] theorem misuse_andThen (fault : Misuse) (next : Except EvalError α → Eval β) :
    (misuse fault).andThen next = misuse fault := rfl

end Eval

/-- The ways to use a node, or whatever takes the place of one. -/
structure Handle where
  get : Value → Eval Value
  set : Value → Value → Eval Unit
  ask : Question → Eval Bool

namespace Handle

/-- What takes the place of a child that is not there. -/
def absent (error : EvalError) : Handle where
  get _ := .finish (.error error)
  set _ _ := .finish (.error error)
  ask _ := .finish (.ok false)

/-- What takes the place of something that cannot be used at all. -/
def stray (misuse : Misuse) : Handle where
  get _ := .misuse misuse
  set _ _ := .misuse misuse
  ask _ := .misuse misuse

end Handle

def invoke (gateway : Option Registry) (call : Invocation) : Eval Value := fun world =>
  match gateway with
  | none =>
    (.ok (.error (.method
      { member := call.member world.heap
        cause := .raised "no method accessor configured" [] })), world)
  | some registry =>
    let (outcome, outside) := registry.call call world.outside
    (.ok (outcome.mapError .method), { world with outside })

def Script.run {C α : Type} (reach : C → Handle) (gateway : Option Registry) :
    Script C α → Eval α
  | .done outcome => .finish outcome
  | .get child source next =>
    ((reach child).get source).andThen fun answer => (next answer).run reach gateway
  | .set child target value next =>
    ((reach child).set target value).andThen fun answer => (next answer).run reach gateway
  | .ask child question next =>
    ((reach child).ask question).andThen fun answer => (next answer).run reach gateway
  | .invoke call next =>
    (ObjectNavigation.invoke gateway call).andThen fun answer => (next answer).run reach gateway
  | .look next => fun world => (next world.surface).run reach gateway world
  | .locate next => fun world => (next world.context.position).run reach gateway world
  | .alter change next => fun world =>
    next.run reach gateway (world.withSurface (change world.surface))

end ObjectNavigation
