import ObjectNavigation.Node.Body
/-!
Host bodies that are given by data. A plain body has only what every host body must have, and
reads its source. A probe enters each hook that runs in the journal and then does what it was
told, so that a journal shows what was asked of a node and in which order.
-/
namespace ObjectNavigation

namespace HostBody

/-- Reads the source; everything else is left out. -/
def plain (kind : Kind) : HostBody where
  kind
  read _ source := pure source

end HostBody

namespace Probe

inductive Reading where
  | source
  | value (value : Value)
  | fail (error : EvalError)
  /-- Fails the first times, counting its runs. -/
  | failTimes (counter times : Nat) (error : EvalError) (value : Value)
  /-- The list of the children's values. -/
  | children
  /-- The list of the children's values, or a value if one of them fails. -/
  | recover (value : Value)
  /-- Evaluates the children and fails whatever comes of it. -/
  | recoverFail (error : EvalError)
  /-- Where the evaluation stands. -/
  | context
  /-- Changes those settings that are given, then reads the children. -/
  | configure (trace keep : Option Bool) (root : Option Value)

inductive Assigning where
  | refuse
  | accept
  | fail (error : EvalError)
  | children

inductive Answer where
  | yes
  | no
  | fail (error : EvalError)
  /-- What the children answer. -/
  | children

end Probe

structure Probe where
  label : String
  kind : Kind
  reading : Probe.Reading
  assigning : Probe.Assigning := .refuse
  constancy : Probe.Answer := .no
  simplicity : Probe.Answer := .no
  flattens : Bool := false
  text : Option String := none

namespace Probe

def note (probe : Probe) (hook : String) : BodyScript Unit :=
  Script.note (.hook probe.label hook)

def answer : Answer → BodyScript Bool
  | .yes => pure true
  | .fail error => Script.fail error
  | _ => pure false

def children (seat : Seat) (source : Value) : BodyScript Value := do
  Script.newList (← Body.operands seat source)

def ofNat (n : Nat) : Value :=
  .int (Int64.ofNat n)

def ofNat? (n : Option Nat) : Value :=
  (n.map ofNat).getD .null

/-- The number of runs so far, counting this one afterwards. -/
def count (counter : Nat) : BodyScript Nat := do
  let surface ← Script.surface
  let runs := surface.outside.counters[counter]?.getD 0
  Script.change fun surface =>
    { surface with
      outside := { surface.outside with
        counters := surface.outside.counters.modify counter (· + 1) } }
  return runs

def read (probe : Probe) (seat : Seat) (source : Value) : BodyScript Value := do
  probe.note "get"
  match probe.reading with
  | .source => pure source
  | .value value => pure value
  | .fail error => Script.fail error
  | .failTimes counter times error value => do
    if (← count counter) < times then Script.fail error else pure value
  | .children => children seat source
  | .recover value => do
    match ← (children seat source).attempt with
    | .ok list => pure list
    | .error _ => pure value
  | .recoverFail error => do
    discard (children seat source).attempt
    Script.fail error
  | .context => do
    let position ← Script.position
    Script.newList [ofNat position.depth, ofNat? position.current, ofNat? position.root,
      ofNat? position.node, position.object.getD .null]
  | .configure trace keep root => do
    Script.change fun surface =>
      { surface with
        settings :=
          { trace := trace.getD surface.settings.trace
            keep := keep.getD surface.settings.keep
            root := root.getD surface.settings.root } }
    children seat source

def assign (probe : Probe) (seat : Seat) (target value : Value) : BodyScript Unit := do
  probe.note "set"
  match probe.assigning with
  | .refuse => seat.refuse
  | .accept => pure ()
  | .fail error => Script.fail error
  | .children => (List.range seat.slots).forM (Script.setValue · target value)

def ownConstant (probe : Probe) (_ : Seat) : BodyScript Bool := do
  probe.note "is_node_constant"
  answer probe.constancy

def constant (probe : Probe) (seat : Seat) : BodyScript Bool :=
  match probe.constancy with
  | .children => Body.slotsConstant seat (probe.ownConstant seat)
  | _ => probe.ownConstant seat

def ownSimple (probe : Probe) (_ : Seat) : BodyScript Bool := do
  probe.note "is_node_simple_property"
  answer probe.simplicity

def body (probe : Probe) : HostBody where
  kind := probe.kind
  read := probe.read
  assign := probe.assign
  ownConstant := probe.ownConstant
  constant := probe.constant
  ownSimple := probe.ownSimple
  flattens := probe.flattens
  text := probe.text

end Probe
end ObjectNavigation
