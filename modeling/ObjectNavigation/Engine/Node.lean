import ObjectNavigation.Accessor
import ObjectNavigation.Node.Tree
/-!
Evaluation of trees. Each get and set of a node is wrapped in the same three layers: a record if
calls are traced, the note of what the call is about, and, for a get, the constant of the node.
Inside them the body of the node runs, or the accessor in its place if the node is a chain that
has one.

A node is asked once, at its first get, whether it is constant. If it is, and that get succeeds,
the value is kept and is the answer to every later get.
-/
namespace ObjectNavigation

/-- What does not change while an expression is evaluated. -/
structure Env where
  accessor : TreeId → NodeId → Option Accessor := fun _ _ => none
  gateway : Option Registry := none
  /-- What accessors reach. -/
  enter : Entry → Handle := fun _ => .stray .endlessDelegation

namespace Engine
variable {α : Type}

/-- Records a call if calls are traced when it begins. The record of a call that is cut short
stays on the stack. -/
def traced (node : NodeId) (kind : Kind) (source : Value) (setter : Bool)
    (result : α → Option Value) (act : Eval α) : Eval α := fun world =>
  if world.context.settings.trace then
    let (id, pool) := world.context.trace.pool.create node kind source setter
    let begun := ({ world.context.trace with pool }).push id
    act.andThen (fun outcome after =>
      (.ok outcome, after.withTrace (after.context.trace.complete id (outcome.map result)
        after.context.settings.keep))) (world.withTrace begun)
  else act world

def visiting (node : NodeId) (object : Value) (act : Eval α) : Eval α := fun world =>
  act (world.visit node object)

/-- The value kept for a node if there is one, and otherwise what `act` gives. -/
def kept (tree : TreeId) (node : NodeId) (act : Eval Value) : Eval Value := fun world =>
  match (world.constants.cell tree node).value with
  | some value => (.ok (.ok value), world)
  | none => act world

def keeping (tree : TreeId) (node : NodeId) (act : Eval Value) : Eval Value :=
  act.andThen fun
    | .error error => .finish (.error error)
    | .ok value => fun after =>
      let constants := after.constants.keep tree node value
      (.ok (.ok ((constants.cell tree node).value.getD value)), { after with constants })

def cached (tree : TreeId) (node : NodeId) (constant : Eval Bool) (act : Eval Value) :
    Eval Value := fun world =>
  if (world.constants.cell tree node).checked then kept tree node act world
  else
    constant.andThen (fun
        | .error error => .finish (.error error)
        | .ok true => keeping tree node act
        | .ok false => kept tree node act)
      { world with constants := world.constants.check tree node }

/-- What the scripts of a body reach: its child slots, of which each may be empty. -/
def reach (kind : Kind) (child : Nat → Option Handle) (index : Nat) : Handle :=
  match child index with
  | some handle => handle
  | none => .absent (.missingChild kind index)

/-- The accessor that takes the place of the body: chains alone look for one. -/
def substitute? (env : Env) (tree : TreeId) (node : NodeId) : Body → Option Accessor
  | .chain => env.accessor tree node
  | _ => none

def node (env : Env) (tree : TreeId) (id : NodeId) (body : Body) (seat : Seat)
    (child : Nat → Option Handle) : Handle where
  get source :=
    traced id body.kind source false some <| visiting id source <|
      cached tree id ((body.ask seat .constant).run (reach body.kind child) env.gateway) <|
        match substitute? env tree id body with
        | some accessor => (accessor.read source).run env.enter env.gateway
        | none => (body.read seat source).run (reach body.kind child) env.gateway
  set target value :=
    traced id body.kind target true (fun _ => none) <| visiting id target <|
      match substitute? env tree id body with
      | some accessor => (accessor.assign target value).run env.enter env.gateway
      | none => (body.assign seat target value).run (reach body.kind child) env.gateway
  ask question := (body.ask seat question).run (reach body.kind child) env.gateway

end Engine

namespace Tree

mutual

/-- The root of `tree`, as the node `id` of the tree named `home`. -/
def handle (env : Env) (home : TreeId) (id : NodeId) : Tree → Handle
  | .node body slots =>
    Engine.node env home id body (seat (.node body slots)) (child env home (id + 1) slots)

/-- The child in a slot of a node whose first descendant is `next`. -/
def child (env : Env) (home : TreeId) (next : NodeId) :
    List (Option Tree) → Nat → Option Handle
  | [], _ => none
  | none :: _, 0 => none
  | some first :: _, 0 => some (first.handle env home next)
  | none :: rest, index + 1 => child env home next rest index
  | some first :: rest, index + 1 => child env home (next + first.size) rest index

end

def handleAt (env : Env) (home : TreeId) (tree : Tree) (id : NodeId) : Handle :=
  match tree.lookUp id with
  | .ok place => place.subtree.handle env home id
  | .error misuse => .stray misuse

/-- The tree as a whole: the accessor of its root if there is one, and the root otherwise. -/
def entrance (env : Env) (home : TreeId) (tree : Tree) : Handle :=
  match env.accessor home 0 with
  | none => tree.handle env home 0
  | some accessor =>
    { tree.handle env home 0 with
      get := fun source => (accessor.read source).run env.enter env.gateway
      set := fun target value => (accessor.assign target value).run env.enter env.gateway }

end Tree
end ObjectNavigation
