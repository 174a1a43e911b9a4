import ObjectNavigation.Script.Basic
import ObjectNavigation.Engine.World
/-!
Accessors: what a host attaches to a node to take the place of its logic. An accessor is meant to
have the outcomes of the node it stands for; nothing here depends on that. Its scripts can reach
trees, each through the accessor of its root if there is one, and nodes, each by its own logic.
-/
namespace ObjectNavigation

/-- What an accessor can reach: a tree as a whole, or one node of it. -/
structure Entry where
  tree : TreeId
  node : Option NodeId := none
  deriving DecidableEq, Inhabited

structure Accessor where
  read : Value → Script Entry Value
  assign : Value → Value → Script Entry Unit

namespace Accessor

/-- The accessor that notes each use under a label before it acts. -/
def noted (label : String) (accessor : Accessor) : Accessor where
  read source := do
    Script.note (.read label source (← Script.heap))
    accessor.read source
  assign target value := do
    Script.note (.assign label target value (← Script.heap))
    accessor.assign target value

def fixed (value : Value) : Accessor where
  read _ := pure value
  assign _ _ := pure ()

def echo : Accessor where
  read source := pure source
  assign _ _ := pure ()

def failing (error : EvalError) : Accessor where
  read _ := Script.fail error
  assign _ _ := Script.fail error

def delegate (entry : Entry) : Accessor where
  read source := Script.getValue entry source
  assign target value := Script.setValue entry target value

end Accessor
end ObjectNavigation
