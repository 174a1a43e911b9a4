import ObjectNavigation.Trace.Stack
/-!
The context of an evaluation: its settings, the registry through which methods are called, what
the latest call was about, and the records of calls.
-/
namespace ObjectNavigation

abbrev RegistryId := Nat

structure Context where
  settings : Settings := {}
  gateway : Option RegistryId := none
  currentObject : Option Value := none
  currentNode : Option NodeId := none
  trace : Trace := {}
  deriving Inhabited

namespace Context

def position (context : Context) : Position where
  depth := context.trace.depth
  current := context.trace.current
  root := context.trace.root
  node := context.currentNode
  object := context.currentObject

def visit (context : Context) (node : NodeId) (object : Value) : Context :=
  { context with currentObject := some object, currentNode := some node }

/-- Forgets all that belongs to calls; settings and gateway stay. -/
def reset (context : Context) : Context :=
  { context with currentObject := none, currentNode := none, trace := context.trace.reset }

end Context
end ObjectNavigation
