import ObjectNavigation.Workspace
/-!
What can be told about a node without evaluating it: its place, its text, its answers to the four
questions, what has been found about its constant, and whether an accessor is attached.
-/
namespace ObjectNavigation

structure Inspection where
  place : Tree.Place
  text : String
  /-- The answers in the order constant, children constant, simple property, simple chain. -/
  answers : List (Except Misuse (Except EvalError Bool))
  cell : Cell
  hasAccessor : Bool

namespace Inspection

def kind (inspection : Inspection) : Kind :=
  inspection.place.subtree.kind

def filled (inspection : Inspection) : Nat :=
  (inspection.place.children.filterMap fun slot => slot).length

def debug (inspection : Inspection) : String :=
  "NodeRef \x7b id: NodeId(" ++ toString inspection.place.id ++ "), kind: " ++
    (match inspection.kind with
      | .custom name => "Custom(" ++ quoted name ++ ")"
      | kind => kind.name) ++ " \x7d"

end Inspection

namespace Workspace

def askAll (workspace : Workspace) (tree : TreeId) (place : Tree.Place) :
    List Question → List (Except Misuse (Except EvalError Bool)) × Workspace
  | [] => ([], workspace)
  | question :: rest =>
    let (answer, workspace) := workspace.ask tree place question
    let (answers, workspace) := workspace.askAll tree place rest
    (answer :: answers, workspace)

def inspectPlace (workspace : Workspace) (id : TreeId) (place : Tree.Place) :
    Inspection × Workspace :=
  let (answers, workspace) := workspace.askAll id place
    [.constant, .childrenConstant, .simpleProperty, .simpleChain]
  ({ place
     text := place.subtree.text workspace.heap
     answers
     cell := workspace.constants.cell id place.id
     hasAccessor := (workspace.accessor? id place.id).isSome }, workspace)

def inspectPlaces (workspace : Workspace) (id : TreeId) :
    List Tree.Place → List Inspection × Workspace
  | [] => ([], workspace)
  | place :: rest =>
    let (inspection, workspace) := workspace.inspectPlace id place
    let (inspections, workspace) := workspace.inspectPlaces id rest
    (inspection :: inspections, workspace)

end Workspace
end ObjectNavigation
