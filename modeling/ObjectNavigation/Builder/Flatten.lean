import ObjectNavigation.Builder.Basic
/-!
Closing a node. A node that flattens takes over the children of its children of the same kind:
each such child is replaced by its own slots, empty ones included, and is left without parent and
children. Children close before their parent, so one level of this exposes a whole nesting.
-/
namespace ObjectNavigation
namespace Builder

/-- The child in a slot, if it is one that a node of kind `kind` absorbs. -/
def absorbed? (builder : Builder) (kind : Kind) (slot : Option NodeId) : Option NodeId :=
  slot.filter fun child => (builder.slot? child).any fun held => held.kind = kind

/-- The slots that come in place of one slot. -/
def expansion (builder : Builder) (kind : Kind) (slot : Option NodeId) : List (Option NodeId) :=
  match builder.absorbed? kind slot with
  | some child => builder.children child
  | none => [slot]

def expansionSize (builder : Builder) (kind : Kind) (slot : Option NodeId) : Nat :=
  match builder.absorbed? kind slot with
  | some child => builder.childCount child
  | none => 1

def expandedLength (builder : Builder) (kind : Kind) : List (Option NodeId) → Nat
  | [] => 0
  | slot :: rest => builder.expansionSize kind slot + builder.expandedLength kind rest

/-- Splices the children of `id` of its own kind. -/
def flatten (builder : Builder) (id : NodeId) : Except BuildError Builder :=
  match builder.slot? id with
  | none => .error (.unknownNode id)
  | some slot =>
    let spliced := slot.children.filterMap (builder.absorbed? slot.kind)
    if spliced.isEmpty then .ok builder
    else
      let rebuilt := slot.children.flatMap (builder.expansion slot.kind)
      let expected := builder.expandedLength slot.kind slot.children
      if rebuilt.length ≠ expected then .error (.inconsistent id expected rebuilt.length)
      else
        .ok <| ((builder.modifyAll spliced fun slot =>
            { slot with children := [], parent := none }).modifyAll (rebuilt.filterMap fun s => s)
            fun slot => { slot with parent := some id }).modify id
            fun slot => { slot with children := rebuilt }

def close (builder : Builder) (id : NodeId) : Except BuildError Builder :=
  match builder.slot? id with
  | none => .error (.unknownNode id)
  | some slot =>
    match slot.stage with
    | .closed => .error (.alreadyClosed id)
    | .created => .error (.notOpen id)
    | .opened =>
      let closed := builder.modify id fun slot => { slot with stage := .closed }
      if slot.body.flattens then closed.flatten id else .ok closed

def leaf (builder : Builder) (body : Body) : Except BuildError (NodeId × Builder) := do
  let (id, builder) := builder.node body
  return (id, ← (← builder.open id).close id)

def branch (builder : Builder) (body : Body) (children : List (Option NodeId)) :
    Except BuildError (NodeId × Builder) := do
  let (id, builder) := builder.node body
  let builder ← children.zipIdx.foldlM (fun built (child, index) =>
      match child with
      | some child => built.attach id child index
      | none => .ok built)
    (← builder.open id)
  return (id, ← builder.close id)

end Builder
end ObjectNavigation
