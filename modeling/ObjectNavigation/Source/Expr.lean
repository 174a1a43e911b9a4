import ObjectNavigation.Source.Token
/-!
Expressions as they are written. What cannot become part of a tree is kept as the tokens that it
consists of, together with the little that matters for how it combines with its neighbours.
-/
namespace ObjectNavigation.Source

/-- How an expression that is no tree combines with what surrounds it. -/
inductive Shape where
  | plain
  /-- A range does not continue as the left operand of anything. -/
  | range
  /-- An expression that ends with a block and is a statement by itself. -/
  | block
  /-- An expression with a bang, in braces or not. -/
  | bang (braced : Bool)
  /-- An expression that is kept exactly as it is spelled. -/
  | spelled
  /-- A longer expression with one of those as its first operand. -/
  | spelledFirst
  deriving DecidableEq, Inhabited

inductive Expr where
  | literal (offset : Nat) (text : String) (value : Literal)
  /-- A path; `simple` if it is one name and nothing else. -/
  | path (segments : List String) (simple : Bool) (tokens : List Token)
  | field (base : Expr) (name : String)
  | invoke (receiver : Expr) (method : String) (arguments : List Expr)
  /-- A call of what a path names. -/
  | call (segments : List String) (arguments : List Expr)
  /-- A call of anything else. -/
  | apply (target : List Token)
  | binary (operator : String) (offset : Nat) (left right : Expr)
  | unary (operator : String) (offset : Nat) (operand : Expr)
  | list (items : List Expr)
  | paren (inner : Expr)
  | other (shape : Shape) (tokens : List Token)
  deriving Inhabited

namespace Expr

/-- The expression with the tokens that it is known to consist of. -/
def spanning (tokens : List Token) : Expr → Expr
  | path segments simple _ => path segments simple tokens
  | other shape _ => other shape tokens
  | e => e

def shape : Expr → Shape
  | other shape _ => shape
  | _ => .plain

def isRange (e : Expr) : Bool :=
  e.shape == .range

def startsSpelled : Expr → Bool
  | binary _ _ left _ => left.startsSpelled
  | e => e.shape == .spelled || e.shape == .spelledFirst

/-- The shape of an expression that goes on from this one as its first operand. -/
def continuedShape (e : Expr) : Shape :=
  if e.startsSpelled then .spelledFirst else .plain

end Expr
end ObjectNavigation.Source
