import ObjectNavigation.Method.Registry
/-!
Methods that are given by what they do. They answer from their target and arguments, read or
change one field of the target, or fail in one of the ways a host can fail.
-/
namespace ObjectNavigation

inductive Behaviour where
  | give (value : Value)
  /-- The list of the arguments. -/
  | arguments
  | firstArgument
  | target
  /-- The type name of the target. -/
  | typeOfTarget
  /-- A field of the target. -/
  | field (name : String)
  /-- Assigns the first argument to a field of the target and answers with what was there. -/
  | setField (name : String)
  | fail (message : String)
  /-- Fails with one error that wraps another. -/
  | failWithin (context message : String)
  /-- Fails with an error of the host that is worded like a refusal and is none. -/
  | failLikeDenied (permission : String)

namespace Behaviour

def setTarget (name : String) (value : Value) (heap : Heap) : Option Value → Value × Heap
  | some (.object o) => ((heap.get? o name).getD .null, heap.set o name value)
  | _ => (.null, heap)

def run (behaviour : Behaviour) (target : Option Value) (arguments : List Value) (heap : Heap) :
    Except HostError Value × Heap :=
  match behaviour with
  | give value => (.ok value, heap)
  | .arguments =>
    let (value, heap) := heap.newList arguments
    (.ok value, heap)
  | firstArgument => (.ok (arguments.head?.getD .null), heap)
  | .target => (.ok (target.getD .null), heap)
  | typeOfTarget => (.ok ((target.map fun value => .string (value.typeName heap)).getD .null), heap)
  | field name =>
    (.ok (((target.bind Value.object?).bind (heap.get? · name)).getD .null), heap)
  | setField name =>
    let (value, heap) := setTarget name (arguments.head?.getD .null) heap target
    (.ok value, heap)
  | fail message => (.error { text := message }, heap)
  | failWithin context message => (.error { text := context, beneath := [message] }, heap)
  | failLikeDenied permission => (.error { text := deniedText permission }, heap)

def method (behaviour : Behaviour) (label : String) : Method where
  label
  run := behaviour.run

end Behaviour
end ObjectNavigation
