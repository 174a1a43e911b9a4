import ObjectNavigation.Script.Surface
import ObjectNavigation.Value.Text
/-!
Records of calls, and the storage that recycles them. A record describes one get or set of one
node and links to the records of the calls made during it. A record that is given back loses its
contents and waits on the free list; the one freed last is handed out first.
-/
namespace ObjectNavigation

/-- One traced get or set of one node. -/
structure Call where
  node : NodeId
  kind : Kind
  /-- The source of a get, the target of a set. -/
  source : Value
  setter : Bool
  result : Option Value := none
  failure : Option String := none
  parent : Option CallId := none
  /-- In the order in which they were made. -/
  children : List CallId := []
  /-- Handed out and not yet given back. -/
  live : Bool := true
  deriving Inhabited

namespace Call

/-- A record given back: only the node, its kind and the direction are still there. -/
def released (call : Call) : Call :=
  { call with
    source := .null
    result := none
    failure := none
    parent := none
    children := []
    live := false }

def text (heap : Heap) (call : Call) : String :=
  (if call.setter then "set " else "get ") ++ call.kind.name ++ " " ++ NodeId.text call.node ++
    " on " ++ call.source.debug heap ++
    (match call.result with
      | some result => " => " ++ result.debug heap
      | none => "") ++
    match call.failure with
      | some failure => " failed: " ++ failure
      | none => ""

end Call

structure Pool where
  records : Array Call := #[]
  /-- The record freed last comes first. -/
  free : List CallId := []
  deriving Inhabited

namespace Pool

def get? (pool : Pool) (id : CallId) : Option Call :=
  (pool.records[id]?).filter Call.live

def modify (pool : Pool) (id : CallId) (change : Call → Call) : Pool :=
  { pool with
    records := pool.records.modify id fun call => if call.live then change call else call }

/-- A record for a call, a free one if there is any. -/
def create (pool : Pool) (node : NodeId) (kind : Kind) (source : Value) (setter : Bool) :
    CallId × Pool :=
  match pool.free with
  | id :: free =>
    (id, { records := pool.records.modify id fun call =>
             { call with node, kind, source, setter, live := true }
           free })
  | [] =>
    (pool.records.size, { pool with records := pool.records.push { node, kind, source, setter } })

def attach (pool : Pool) (parent child : CallId) : Pool :=
  (pool.modify child fun call => { call with parent := some parent }).modify parent fun call =>
    { call with children := call.children ++ [child] }

def allocated (pool : Pool) : Nat :=
  pool.records.size

def available (pool : Pool) : Nat :=
  pool.free.length

def inUse (pool : Pool) : Nat :=
  pool.allocated - pool.available

def liveCount (pool : Pool) : Nat :=
  pool.records.countP Call.live

def release (pool : Pool) (id : CallId) : Pool :=
  { records := pool.records.modify id Call.released, free := id :: pool.free }

theorem liveCount_release_lt {pool : Pool} {id : CallId} {call : Call}
    (h : pool.get? id = some call) : (pool.release id).liveCount < pool.liveCount := by
  obtain ⟨hget, hlive⟩ := Option.filter_eq_some_iff.1 h
  obtain ⟨hlt, hcall⟩ := Array.getElem?_eq_some_iff.1 hget
  have hmod : pool.records.modify id Call.released =
      pool.records.set id (Call.released pool.records[id]) hlt := by
    apply Array.ext
    · simp
    · intro i hi _
      simp only [Array.getElem_modify, Array.getElem_set]
      split
      next he => subst he; rfl
      next => rfl
  have hpos : 0 < pool.records.countP Call.live :=
    Array.countP_pos_iff.2 ⟨call, hcall ▸ Array.getElem_mem hlt, hlive⟩
  have hset : (pool.release id).liveCount = pool.liveCount - 1 + 0 := by
    simp only [liveCount, release, hmod]
    rw [Array.countP_set]
    simp [hcall, hlive, Call.released]
  rw [hset]
  unfold liveCount
  omega

/-- Gives back the live records that can be reached from `ids` through live records, and counts
them. Below a record its last child comes first. -/
def recycle (pool : Pool) (ids : List CallId) : Pool × Nat :=
  match ids with
  | [] => (pool, 0)
  | id :: rest =>
    match _h : pool.get? id with
    | none => pool.recycle rest
    | some call =>
      let (recycled, count) := (pool.release id).recycle (call.children.reverse ++ rest)
      (recycled, count + 1)
termination_by (pool.liveCount, ids.length)
decreasing_by
  · exact Prod.Lex.right _ (by simp)
  · exact Prod.Lex.left _ _ (liveCount_release_lt _h)

/-- Gives back a record and all below it; the number of records given back comes with it. -/
def recycleAll (pool : Pool) (id : CallId) : Pool × Nat :=
  pool.recycle [id]

/-- The record and those it was made under, innermost first. No such line is longer than the
number of records. -/
def lineage (pool : Pool) (id : Option CallId) : List CallId :=
  go (pool.records.size + 1) id
where
  go : Nat → Option CallId → List CallId
    | 0, _ | _, none => []
    | steps + 1, some id => id :: go steps ((pool.get? id).bind Call.parent)

end Pool
end ObjectNavigation
