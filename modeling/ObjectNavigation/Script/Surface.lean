import ObjectNavigation.Failure
/-!
What host code can see and change while an expression is evaluated: the object graph, the journal
of what host code did, counters of its own, and the settings of the evaluation. The bookkeeping
of an evaluation itself, its traces and its constants, is not part of it.
-/
namespace ObjectNavigation

/-- What host code did. Values are kept with the graph as it was then. -/
inductive Event where
  /-- A node body ran one of its hooks. -/
  | hook (label name : String)
  /-- An accessor read from a source. -/
  | read (label : String) (source : Value) (heap : Heap)
  /-- An accessor assigned to a target. -/
  | assign (label : String) (target value : Value) (heap : Heap)
  /-- A method was called, on a target unless it is static. -/
  | call (label : String) (target : Option Value) (arguments : List Value) (heap : Heap)

/-- The object graph and all that belongs to the host. -/
structure Outside where
  heap : Heap := {}
  /-- Oldest first. -/
  journal : List Event := []
  counters : Array Nat := #[]
  deriving Inhabited

def Outside.note (outside : Outside) (event : Event) : Outside :=
  { outside with journal := outside.journal ++ [event] }

/-- What is fixed before an evaluation, and may be changed during it. -/
structure Settings where
  /-- The object against which method arguments are evaluated. -/
  root : Value := .null
  /-- Whether calls are recorded. -/
  trace : Bool := false
  /-- Whether the record of the last outermost call is retained when it succeeds. -/
  keep : Bool := false
  deriving Inhabited

structure Surface where
  outside : Outside := {}
  settings : Settings := {}
  deriving Inhabited

namespace Surface

def heap (surface : Surface) : Heap := surface.outside.heap

def note (surface : Surface) (event : Event) : Surface :=
  { surface with outside := surface.outside.note event }

def withHeap (surface : Surface) (heap : Heap) : Surface :=
  { surface with outside := { surface.outside with heap := heap } }

end Surface

abbrev CallId := Nat

/-- Where an evaluation stands: the records of the innermost and the outermost call in progress,
the number of calls in progress, and what the latest call was about. -/
structure Position where
  depth : Nat
  current : Option CallId
  root : Option CallId
  node : Option NodeId
  object : Option Value

end ObjectNavigation
