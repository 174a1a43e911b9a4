import ObjectNavigation.Node.Tree
/-!
Construction of trees. A node is created, opened, given children, and closed; children can be
attached to an open node only, and a node has at most one parent. A child that is attached where
another one was displaces it. Nothing keeps a caller from attaching nodes in a circle.
-/
namespace ObjectNavigation

inductive Stage where
  | created
  | opened
  | closed
  deriving DecidableEq, Inhabited

structure Slot where
  body : Body
  parent : Option NodeId := none
  children : List (Option NodeId) := []
  stage : Stage := .created

def Slot.kind (slot : Slot) : Kind :=
  slot.body.kind

/-- The nodes created so far, in order of creation. -/
structure Builder where
  slots : Array Slot := #[]

namespace Builder

instance : EmptyCollection Builder := ⟨{}⟩

def node (builder : Builder) (body : Body) : NodeId × Builder :=
  (builder.slots.size, { slots := builder.slots.push { body } })

def slot? (builder : Builder) (id : NodeId) : Option Slot :=
  builder.slots[id]?

def parent? (builder : Builder) (id : NodeId) : Option NodeId :=
  (builder.slot? id).bind Slot.parent

def children (builder : Builder) (id : NodeId) : List (Option NodeId) :=
  ((builder.slot? id).map Slot.children).getD []

def childCount (builder : Builder) (id : NodeId) : Nat :=
  (builder.children id).length

def child? (builder : Builder) (id : NodeId) (index : Nat) : Option NodeId :=
  ((builder.children id)[index]?).join

def modify (builder : Builder) (id : NodeId) (change : Slot → Slot) : Builder :=
  { slots := builder.slots.modify id change }

def modifyAll (builder : Builder) (ids : List NodeId) (change : Slot → Slot) : Builder :=
  ids.foldl (fun built id => built.modify id change) builder

def «open» (builder : Builder) (id : NodeId) : Except BuildError Builder :=
  match builder.slot? id with
  | none => .error (.unknownNode id)
  | some slot =>
    if slot.stage = .closed then .error (.alreadyClosed id)
    else .ok (builder.modify id fun slot => { slot with stage := .opened })

/-- `children` with `child` in slot `index`, empty slots filling the gap to it. -/
def place (child : NodeId) (index : Nat) (children : List (Option NodeId)) :
    List (Option NodeId) :=
  (children ++ List.replicate (index + 1 - children.length) none).set index (some child)

def attach (builder : Builder) (parent child : NodeId) (index : Nat) :
    Except BuildError Builder :=
  if parent = child then .error (.selfReference parent)
  else
    match builder.slot? parent, builder.slot? child with
    | none, _ => .error (.unknownNode parent)
    | some holder, held =>
      if holder.stage ≠ .opened then .error (.notOpen parent)
      else
        match held with
        | none => .error (.unknownNode child)
        | some slot =>
          match slot.parent with
          | some existing => .error (.alreadyAttached child existing)
          | none =>
            let displaced := (holder.children[index]?).join.toList
            .ok <| ((builder.modify parent fun slot =>
                { slot with children := place child index slot.children }).modifyAll displaced
                fun slot => { slot with parent := none }).modify child
                fun slot => { slot with parent := some parent }

end Builder
end ObjectNavigation
