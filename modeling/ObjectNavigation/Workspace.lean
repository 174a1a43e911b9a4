import ObjectNavigation.Engine.Node
/-!
A workspace: trees, contexts and registries side by side over one object graph. Trees share
nothing but the graph and what their accessors reach; a context can be used with any tree. The
constants of a tree and the accessors attached to it belong to the workspace.

Accessors can lead from tree to tree. An evaluation follows them to a fixed depth, which only
accessors that lead to each other in a circle come near.
-/
namespace ObjectNavigation

abbrev ContextId := Nat

structure Workspace where
  outside : Outside := {}
  constants : Constants := {}
  trees : Array Tree := #[]
  accessors : List ((TreeId × NodeId) × Accessor) := []
  contexts : Array Context := #[]
  registries : Array Registry := #[]

namespace Workspace

def heap (workspace : Workspace) : Heap :=
  workspace.outside.heap

def withHeap (workspace : Workspace) (heap : Heap) : Workspace :=
  { workspace with outside := { workspace.outside with heap } }

def newList (workspace : Workspace) (items : List Value) : Value × Workspace :=
  let (value, heap) := workspace.heap.newList items
  (value, workspace.withHeap heap)

def newObject (workspace : Workspace) (record : Record) : ObjectId × Workspace :=
  let (object, heap) := workspace.heap.allocate record
  (object, workspace.withHeap heap)

def newCounter (workspace : Workspace) : Nat × Workspace :=
  let outside := workspace.outside
  (outside.counters.size,
    { workspace with outside := { outside with counters := outside.counters.push 0 } })

def newTree (workspace : Workspace) (tree : Tree) : TreeId × Workspace :=
  (workspace.trees.size, { workspace with trees := workspace.trees.push tree })

def newContext (workspace : Workspace) (context : Context) : ContextId × Workspace :=
  (workspace.contexts.size, { workspace with contexts := workspace.contexts.push context })

def newRegistry (workspace : Workspace) (registry : Registry) : RegistryId × Workspace :=
  (workspace.registries.size,
    { workspace with registries := workspace.registries.push registry })

def context (workspace : Workspace) (id : ContextId) : Context :=
  workspace.contexts[id]?.getD {}

def modifyContext (workspace : Workspace) (id : ContextId) (change : Context → Context) :
    Workspace :=
  { workspace with contexts := workspace.contexts.modify id change }

def modifyRegistry (workspace : Workspace) (id : RegistryId) (change : Registry → Registry) :
    Workspace :=
  { workspace with registries := workspace.registries.modify id change }

/-! ### Accessors -/

def accessor? (workspace : Workspace) (tree : TreeId) (node : NodeId) : Option Accessor :=
  workspace.accessors.lookup (tree, node)

theorem mem_of_accessor? {workspace : Workspace} {tree : TreeId} {node : NodeId}
    {accessor : Accessor} (h : workspace.accessor? tree node = some accessor) :
    ((tree, node), accessor) ∈ workspace.accessors := by
  obtain ⟨before, after, heq, _⟩ := List.lookup_eq_some_iff.1 h
  rw [heq]
  exact List.mem_append_right before List.mem_cons_self

def detach (workspace : Workspace) (tree : TreeId) (node : NodeId) : Workspace :=
  { workspace with accessors := workspace.accessors.filter fun entry => entry.1 ≠ (tree, node) }

/-- Attaches an accessor, in place of one that is there. -/
def attach (workspace : Workspace) (tree : TreeId) (node : NodeId) (accessor : Accessor) :
    Workspace :=
  let workspace := workspace.detach tree node
  { workspace with accessors := ((tree, node), accessor) :: workspace.accessors }

/-! ### Evaluation -/

/-- What an accessor reaches when it may still lead `depth` steps on. -/
def enter (workspace : Workspace) (gateway : Option Registry) : Nat → Entry → Handle
  | 0, _ => .stray .endlessDelegation
  | depth + 1, entry =>
    match workspace.trees[entry.tree]? with
    | none => .stray .noSuchTree
    | some tree =>
      let env : Env :=
        { accessor := workspace.accessor?, gateway, enter := workspace.enter gateway depth }
      match entry.node with
      | none => tree.entrance env entry.tree
      | some node => tree.handleAt env entry.tree node

def delegationDepth : Nat := 1024

def gateway (workspace : Workspace) (context : Context) : Option Registry :=
  context.gateway.bind (workspace.registries[·]?)

def env (workspace : Workspace) (gateway : Option Registry) : Env where
  accessor := workspace.accessor?
  gateway
  enter := workspace.enter gateway delegationDepth

def handle (workspace : Workspace) (context : Context) (entry : Entry) : Handle :=
  workspace.enter (workspace.gateway context) delegationDepth entry

def world (workspace : Workspace) (context : Context) : World where
  outside := workspace.outside
  constants := workspace.constants
  context

/-- Runs a computation in a context of its own, which is given back. -/
def perform {α : Type} (workspace : Workspace) (context : Context) (act : Eval α) :
    Except Misuse (Except EvalError α) × Context × Workspace :=
  let (outcome, world) := act (workspace.world context)
  (outcome, world.context,
    { workspace with outside := world.outside, constants := world.constants })

def performIn {α : Type} (workspace : Workspace) (id : ContextId) (act : Eval α) :
    Except Misuse (Except EvalError α) × Workspace :=
  let (outcome, context, workspace) := workspace.perform (workspace.context id) act
  (outcome, workspace.modifyContext id fun _ => context)

def get (workspace : Workspace) (id : ContextId) (entry : Entry) (source : Value) :
    Except Misuse (Except EvalError Value) × Workspace :=
  workspace.performIn id ((workspace.handle (workspace.context id) entry).get source)

def set (workspace : Workspace) (id : ContextId) (entry : Entry) (target value : Value) :
    Except Misuse (Except EvalError Unit) × Workspace :=
  workspace.performIn id ((workspace.handle (workspace.context id) entry).set target value)

def getThrough (workspace : Workspace) (id : ContextId) (accessor : Accessor) (source : Value) :
    Except Misuse (Except EvalError Value) × Workspace :=
  let gateway := workspace.gateway (workspace.context id)
  workspace.performIn id <|
    (accessor.read source).run (workspace.enter gateway delegationDepth) gateway

/-- Asks a node in a context that has seen nothing. -/
def ask (workspace : Workspace) (tree : TreeId) (place : Tree.Place) (question : Question) :
    Except Misuse (Except EvalError Bool) × Workspace :=
  let (outcome, _, workspace) := workspace.perform {}
    ((place.subtree.handle (workspace.env none) tree place.id).ask question)
  (outcome, workspace)

/-- Calls a method as a node would, in no particular context. -/
def call (workspace : Workspace) (registry : Registry) (call : Invocation) :
    Except MethodFailure Value × Workspace :=
  let (outcome, outside) := registry.call call workspace.outside
  (outcome, { workspace with outside })

def takeJournal (workspace : Workspace) : List Event × Workspace :=
  (workspace.outside.journal,
    { workspace with outside := { workspace.outside with journal := [] } })

end Workspace
end ObjectNavigation
