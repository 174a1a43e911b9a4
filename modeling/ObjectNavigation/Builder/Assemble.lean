import ObjectNavigation.Builder.Finish
/-!
Building a tree that is given as a whole. The children of a node are built before it, left to
right, and are attached at their slots; what comes out has the same leaves, and is flattened
where the bodies ask for it.
-/
namespace ObjectNavigation
namespace Builder

mutual

def assemble (builder : Builder) : Tree → Except BuildError (NodeId × Builder)
  | .node body slots => do
    let (children, builder) ← builder.assembleSlots slots
    builder.branch body children

def assembleSlots (builder : Builder) :
    List (Option Tree) → Except BuildError (List (Option NodeId) × Builder)
  | [] => .ok ([], builder)
  | none :: rest => do
    let (ids, builder) ← builder.assembleSlots rest
    return (none :: ids, builder)
  | some child :: rest => do
    let (id, builder) ← builder.assemble child
    let (ids, builder) ← builder.assembleSlots rest
    return (some id :: ids, builder)

end

end Builder

def Tree.built (tree : Tree) : Except BuildError Tree := do
  let (root, builder) ← (∅ : Builder).assemble tree
  builder.finish root

end ObjectNavigation
