/-!
The kinds of node. A kind names a node in messages and decides what a closing node absorbs; two
nodes of host kinds are of one kind when the host gave them one name.
-/
namespace ObjectNavigation

inductive Kind where
  | const
  | property
  | chain
  | add
  | subtract
  | multiply
  | divide
  | negate
  | list
  | method
  | staticMethod
  | custom (name : String)
  deriving DecidableEq, Inhabited

namespace Kind

def name : Kind → String
  | const => "Const"
  | property => "Property"
  | chain => "Chain"
  | add => "Add"
  | subtract => "Subtract"
  | multiply => "Multiply"
  | divide => "Divide"
  | negate => "Negate"
  | list => "List"
  | method => "Method"
  | staticMethod => "StaticMethod"
  | custom name => name

/-- The kinds that stand between operands, and so are put in parentheses inside another node. -/
def isOperator : Kind → Bool
  | add | subtract | multiply | divide => true
  | _ => false

end Kind

/-- The place of a node in its tree, counted in depth-first order from the root, or in its
builder, counted in the order of creation. -/
abbrev NodeId := Nat

def NodeId.text (id : NodeId) : String :=
  "#" ++ toString id

end ObjectNavigation
