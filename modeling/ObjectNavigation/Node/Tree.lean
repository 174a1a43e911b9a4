import ObjectNavigation.Node.Body
/-!
Expression trees. A node is a body with child slots, and a slot may be empty. Nodes are named by
their place in depth-first order from the root, which is node zero; the nodes below a node are
those that follow it, as many as it has descendants. The text of a tree is the expression it
stands for.
-/
namespace ObjectNavigation

inductive Tree where
  | node (body : Body) (slots : List (Option Tree))

namespace Tree

def body : Tree → Body
  | node body _ => body

def slots : Tree → List (Option Tree)
  | node _ slots => slots

def kind (tree : Tree) : Kind :=
  tree.body.kind

mutual

def size : Tree → Nat
  | node _ slots => 1 + sizeSlots slots

def sizeSlots : List (Option Tree) → Nat
  | [] => 0
  | none :: rest => sizeSlots rest
  | some child :: rest => child.size + sizeSlots rest

end

theorem size_pos (tree : Tree) : 0 < tree.size := by
  cases tree with
  | node body slots => simp only [size]; omega

/-- The names of the children of a node whose first descendant is `next`. -/
def childIds (next : NodeId) : List (Option Tree) → List (Option NodeId)
  | [] => []
  | none :: rest => none :: childIds next rest
  | some child :: rest => some next :: childIds (next + child.size) rest

/-! ### Text -/

def segments (typeName : String) : String :=
  String.ofList (typeName.toList.flatMap fun c => if c = '.' then [':', ':'] else [c])

def layout (heap : Heap) (body : Body) (operands : List String) : String :=
  match body with
  | .const value => value.debug heap
  | .property name => name
  | .chain => ".".intercalate operands
  | .arithmetic op => (" " ++ op.symbol ++ " ").intercalate operands
  | .negate => "-" ++ "".intercalate operands
  | .list => "[" ++ ", ".intercalate operands ++ "]"
  | .method name => name ++ "(" ++ ", ".intercalate operands ++ ")"
  | .staticMethod typeName name =>
    segments typeName ++ "::" ++ name ++ "(" ++ ", ".intercalate operands ++ ")"
  | .host body => body.text.getD body.kind.name

mutual

def text (heap : Heap) : Tree → String
  | node body slots => layout heap body (operandTexts heap slots)

/-- The texts of the filled slots; an operator is put in parentheses. -/
def operandTexts (heap : Heap) : List (Option Tree) → List String
  | [] => []
  | none :: rest => operandTexts heap rest
  | some child :: rest =>
    (if child.kind.isOperator then "(" ++ child.text heap ++ ")" else child.text heap) ::
      operandTexts heap rest

end

mutual

/-- One line for each node, the children two places further in than their parent. -/
def dumpAt (heap : Heap) (indent : String) : Tree → String
  | node body slots =>
    indent ++ body.kind.name ++ " " ++ (node body slots).text heap ++ "\n" ++
      dumpSlots heap (indent ++ "  ") slots

def dumpSlots (heap : Heap) (indent : String) : List (Option Tree) → String
  | [] => ""
  | none :: rest => dumpSlots heap indent rest
  | some child :: rest => child.dumpAt heap indent ++ dumpSlots heap indent rest

end

def dump (heap : Heap) (tree : Tree) : String :=
  tree.dumpAt heap ""

def seat : Tree → Seat
  | node body slots =>
    { kind := body.kind, slots := slots.length, text := fun heap => (node body slots).text heap }

/-! ### Places -/

structure Place where
  id : NodeId
  subtree : Tree
  /-- The parent, and the slot of the parent in which the node is. -/
  parent : Option (NodeId × Nat)
  /-- The node in the slot after that one. -/
  sibling : Option NodeId
  children : List (Option NodeId)

/-- The name of the child in the first slot, if `next` is the name of the first child. -/
def firstId (next : NodeId) : List (Option Tree) → Option NodeId
  | some _ :: _ => some next
  | _ => none

mutual

/-- The nodes of a tree whose root is named `id`, in depth-first order. -/
def placesFrom (parent : Option (NodeId × Nat)) (sibling : Option NodeId) (id : NodeId) :
    Tree → List Place
  | node body slots =>
    { id, subtree := node body slots, parent, sibling, children := childIds (id + 1) slots } ::
      slotPlaces id 0 (id + 1) slots

def slotPlaces (parent : NodeId) (slot : Nat) (next : NodeId) : List (Option Tree) → List Place
  | [] => []
  | none :: rest => slotPlaces parent (slot + 1) next rest
  | some child :: rest =>
    child.placesFrom (some (parent, slot)) (firstId (next + child.size) rest) next ++
      slotPlaces parent (slot + 1) (next + child.size) rest

end

def places (tree : Tree) : List Place :=
  tree.placesFrom none none 0

mutual

theorem length_placesFrom (parent : Option (NodeId × Nat)) (sibling : Option NodeId)
    (id : NodeId) (tree : Tree) : (tree.placesFrom parent sibling id).length = tree.size := by
  cases tree with
  | node body slots =>
    simp only [placesFrom, size, List.length_cons, length_slotPlaces]
    omega

theorem length_slotPlaces (parent : NodeId) (slot : Nat) (next : NodeId)
    (slots : List (Option Tree)) :
    (slotPlaces parent slot next slots).length = sizeSlots slots := by
  match slots with
  | [] => rfl
  | none :: rest => exact length_slotPlaces parent (slot + 1) next rest
  | some child :: rest =>
    simp only [slotPlaces, sizeSlots, List.length_append]
    rw [length_placesFrom, length_slotPlaces]

end

def place? (tree : Tree) (id : NodeId) : Option Place :=
  tree.places[id]?

theorem isSome_place?_iff (tree : Tree) (id : NodeId) :
    (tree.place? id).isSome ↔ id < tree.size := by
  simp [place?, places, length_placesFrom]

def lookUp (tree : Tree) (id : NodeId) : Except Misuse Place :=
  match tree.place? id with
  | some place => .ok place
  | none => .error (.noSuchNode id)

/-- The node in a slot, or none for an empty slot. -/
def Place.child (place : Place) (index : Nat) : Except Misuse (Option NodeId) :=
  match place.children[index]? with
  | some slot => .ok slot
  | none => .error (.noSuchSlot place.subtree.kind index place.children.length)

/-- The node in a slot, which has to be there and filled. -/
def Place.requiredChild (place : Place) (index : Nat) : Except EvalError NodeId :=
  match place.children[index]? with
  | some (some child) => .ok child
  | _ => .error (.missingChild place.subtree.kind index)

end Tree
end ObjectNavigation
