import ObjectNavigation.Builder.Flatten
/-!
The finished tree. Only what can be reached from the chosen root is kept, and every node of it
has to be closed. The root must not have a parent, so that what is reached is a tree.
-/
namespace ObjectNavigation
namespace Builder

/-- The tree below a node that is at most `depth` levels deep. -/
def collect (builder : Builder) : Nat → NodeId → Except BuildError Tree
  | 0, id => .error (.selfReference id)
  | depth + 1, id =>
    match builder.slot? id with
    | none => .error (.unknownNode id)
    | some slot =>
      if slot.stage ≠ .closed then .error (.unclosed id)
      else do
        return .node slot.body (← slot.children.mapM (·.mapM (builder.collect depth)))

/-- The tree with this root. A tree is no deeper than the number of nodes. -/
def finish (builder : Builder) (root : NodeId) : Except BuildError Tree :=
  match builder.slot? root with
  | none => .error (.unknownNode root)
  | some slot =>
    match slot.parent with
    | some parent => .error (.alreadyAttached root parent)
    | none => builder.collect builder.slots.size root

end Builder
end ObjectNavigation
