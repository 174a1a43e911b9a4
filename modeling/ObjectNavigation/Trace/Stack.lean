import ObjectNavigation.Trace.Pool
/-!
The stack of calls in progress, and what is retained of them. Records link to the record that was
current when they were pushed, so a finished outermost call leaves a tree of records. That tree is
given back unless the call failed or its record is to be kept.

The pending failure is the record of the innermost call that failed with the error now being
passed on. A failure replaces the pending one unless that lies below it.
-/
namespace ObjectNavigation

structure Trace where
  pool : Pool := {}
  /-- The innermost record in progress. -/
  current : Option CallId := none
  /-- The outermost record in progress. -/
  root : Option CallId := none
  /-- The record of the last outermost call that was retained. -/
  last : Option CallId := none
  /-- The record in which the retained call failed. -/
  failed : Option CallId := none
  pending : Option CallId := none
  deriving Inhabited

namespace Trace

/-- Makes a record current, below the one that was. -/
def push (trace : Trace) (id : CallId) : Trace :=
  match trace.current with
  | some current => { trace with pool := trace.pool.attach current id, current := some id }
  | none => { trace with root := some id, pending := none, current := some id }

def pop (trace : Trace) : Option CallId × Trace :=
  match trace.current with
  | none => (none, trace)
  | some popped =>
    let current := (trace.pool.get? popped).bind Call.parent
    (some popped,
      { trace with current, root := if current.isNone then none else trace.root })

def depth (trace : Trace) : Nat :=
  (trace.pool.lineage trace.current).length

/-- Whether the pending failure is in `id` or below it. -/
def failsBelow (trace : Trace) (id : CallId) : Bool :=
  (trace.pool.lineage trace.pending).contains id

def recycle (trace : Trace) (id : CallId) : Trace :=
  { trace with pool := (trace.pool.recycleAll id).1 }

def recycle? (trace : Trace) (id : Option CallId) : Trace :=
  match id with
  | some id => trace.recycle id
  | none => trace

/-- Retains the record of an outermost call in place of the one before. -/
def retain (trace : Trace) (id : CallId) (failed : Option CallId) : Trace :=
  { (trace.recycle? (trace.last.filter (· ≠ id))) with last := some id, failed }

def enter (trace : Trace) (id : CallId) (outcome : Except EvalError (Option Value)) : Trace :=
  { trace with
    pool := trace.pool.modify id fun call =>
      match outcome with
      | .ok (some value) => { call with result := some value }
      | .ok none => call
      | .error error => { call with failure := some error.message } }

/-- What a failed call leaves pending. -/
def markPending (trace : Trace) (id : CallId) (failed : Bool) : Trace :=
  if failed && !trace.failsBelow id then { trace with pending := some id } else trace

/-- Decides about the record of an outermost call that is over. -/
def settle (trace : Trace) (id : CallId) (failed keep : Bool) : Trace :=
  let cleared := { trace with pending := none }
  if failed then cleared.retain id trace.pending
  else if keep then cleared.retain id none
  else cleared.recycle id

/-- Ends a call: its record comes off the stack and holds the outcome, and if it was the
outermost one, its fate is decided. -/
def complete (trace : Trace) (id : CallId) (outcome : Except EvalError (Option Value))
    (keep : Bool) : Trace :=
  let failed := match outcome with
    | .ok _ => false
    | .error _ => true
  let marked := ((trace.pop).2.enter id outcome).markPending id failed
  if marked.root.isSome then marked else marked.settle id failed keep

def clearLast (trace : Trace) : Trace :=
  { trace.recycle? trace.last with last := none, failed := none }

def reset (trace : Trace) : Trace :=
  let cleared := trace.clearLast
  { cleared.recycle? cleared.root with root := none, current := none, pending := none }

/-- The lines of a record and all below it, two places further in for each level. -/
def linesAt (trace : Trace) (heap : Heap) : Nat → Nat → CallId → List String
  | 0, _, _ => []
  | levels + 1, depth, id =>
    match trace.pool.get? id with
    | none => []
    | some call =>
      ("".pushn ' ' (2 * depth) ++ call.text heap) ::
        call.children.flatMap (trace.linesAt heap levels (depth + 1))

def render (trace : Trace) (heap : Heap) (id : CallId) : Option String :=
  (trace.pool.get? id).map fun _ =>
    String.join ((trace.linesAt heap (trace.pool.records.size + 1) 0 id).map (· ++ "\n"))

end Trace
end ObjectNavigation
