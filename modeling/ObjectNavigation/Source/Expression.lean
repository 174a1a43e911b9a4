import ObjectNavigation.Source.Grammar.Block
import ObjectNavigation.Source.Lexeme
import ObjectNavigation.Source.Lowering
/-!
From a source text to a tree. The levels of the grammar are stacked as high as a text of its
number of tokens can need: a brace takes two levels, one for the block and one for the statement
in it, and every other token takes at most one.
-/
namespace ObjectNavigation.Source

def Grammar.step (g : Grammar) : Grammar where
  expression := g.expressionStep
  operand := g.operandStep
  continued := g.continuedStep
  statement := g.statementStep
  type := g.typeStep
  bound := g.boundStep
  pattern := g.patternStep
  block := g.blockStep
  item := g.itemStep

/-- The grammar for syntax that is nested at most `depth` times. -/
def Grammar.within (depth : Nat) : Grammar :=
  Nat.repeat Grammar.step depth Grammar.empty

def expression? (tokens : List Token) : Option Expr := do
  let (e, cursor) ← (Grammar.within (2 * Token.listSize tokens + 1)).whole.run { rest := tokens }
  if cursor.rest.isEmpty then some e else none

inductive SourceError where
  | syntaxError
  | unsupported (error : LoweringError)
  deriving DecidableEq, Inhabited

def parseExpression (source : String) : Except SourceError Tree :=
  match (tokens? source.toList).bind expression? with
  | none => .error .syntaxError
  | some e => (e.tree source.toList).mapError .unsupported

end ObjectNavigation.Source
