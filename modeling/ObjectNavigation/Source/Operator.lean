import ObjectNavigation.Source.Cursor
/-!
Binary operators and how strongly they bind. A cast binds more strongly than any of them; ranges
and plain assignment bind as weakly as the operators that assign.
-/
namespace ObjectNavigation.Source

namespace Level

def lowest : Nat := 0
def assign : Nat := 1
def range : Nat := 2
def compare : Nat := 5
def cast : Nat := 12

end Level

/-- The operators with their levels, those of more marks first. -/
def binaryOperators : List (String × Nat) := [
  ("<<=", Level.assign), (">>=", Level.assign),
  ("+=", Level.assign), ("-=", Level.assign), ("*=", Level.assign), ("/=", Level.assign),
  ("%=", Level.assign), ("^=", Level.assign), ("&=", Level.assign), ("|=", Level.assign),
  ("||", 3), ("&&", 4),
  ("==", Level.compare), ("<=", Level.compare), ("!=", Level.compare), (">=", Level.compare),
  ("<<", 9), (">>", 9),
  ("<", Level.compare), (">", Level.compare),
  ("|", 6), ("^", 7), ("&", 8), ("+", 10), ("-", 10), ("*", 11), ("/", 11), ("%", 11)]

def binaryOperator? (tokens : List Token) : Option (String × Nat) :=
  binaryOperators.find? fun (text, _) => Next.mark text tokens

def isComparison (operator : String) : Bool :=
  binaryOperators.contains (operator, Level.compare)

def assignmentAhead (tokens : List Token) : Bool :=
  Next.mark "=" tokens && !Next.mark "=>" tokens

def levelAhead (tokens : List Token) : Nat :=
  match binaryOperator? tokens with
  | some (_, level) => level
  | none =>
    if assignmentAhead tokens then Level.assign
    else if Next.mark ".." tokens then Level.range
    else if Next.word "as" tokens then Level.cast
    else Level.lowest

end ObjectNavigation.Source
