import ObjectNavigation.Source.Cursor
import ObjectNavigation.Source.Expr
/-!
The parts of the grammar that contain each other. Each production is written against a record of
the productions one level below it, so that none of them refers to itself; the levels are put
together in `Source.Expression`.
-/
namespace ObjectNavigation.Source

/-- What a type turned out to be, as far as what follows it depends on that. -/
inductive TypeShape where
  /-- A path of one segment. -/
  | segment
  | path
  /-- One bound without a keyword. -/
  | bound
  | other
  deriving DecidableEq, Inhabited

/-- Where a bound stands, which decides what it may be besides a lifetime or a trait. -/
inductive BoundPlace where
  /-- In a type that is only known by its bounds. It may be constant, and may name what the type
  captures. -/
  | unnamed
  /-- After a colon. It may be constant. -/
  | constraint
  /-- In the type of an object. -/
  | object
  deriving DecidableEq, Inhabited

/-- What a pattern turned out to be, as far as what surrounds it depends on that. -/
inductive PatternShape where
  | plain
  /-- A range with both ends. -/
  | range
  /-- A range with an open end. -/
  | openRange
  /-- A constant block. -/
  | block
  /-- A pattern that is kept exactly as it is spelled. -/
  | spelled
  deriving DecidableEq, Inhabited

structure Grammar where
  /-- An expression. `structs` tells whether a brace after a path belongs to the path. -/
  expression : (structs : Bool) → TokenParser Expr
  /-- An operand with the operators before and after it. -/
  operand : (structs : Bool) → TokenParser Expr
  /-- Continues an expression that began at `start` and was read up to here by operators of at
  least a level. -/
  continued : (structs : Bool) → (start : Nat) → Expr → (level : Nat) → TokenParser Expr
  /-- An expression at the beginning of a statement, which a block ends early. -/
  statement : TokenParser Expr
  /-- A type; `plus` tells whether it may go on with further bounds. -/
  type : (plus : Bool) → TokenParser TypeShape
  /-- A bound of a type; the result tells whether it is a trait. -/
  bound : BoundPlace → TokenParser Bool
  /-- A pattern without alternatives. -/
  pattern : TokenParser PatternShape
  /-- A block; `inner` tells whether attributes may stand in it that are about it. -/
  block : (inner : Bool) → TokenParser Unit
  /-- A declaration. -/
  item : TokenParser Unit

def Grammar.empty : Grammar where
  expression _ := failure
  operand _ := failure
  continued _ _ _ _ := failure
  statement := failure
  type _ := failure
  bound _ := failure
  pattern := failure
  block _ := failure
  item := failure

/-- An expression in brackets or after a keyword, where a brace after a path belongs to it. -/
def Grammar.whole (g : Grammar) : TokenParser Expr :=
  g.expression true

end ObjectNavigation.Source
