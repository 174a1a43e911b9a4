/-!
Positions in a source text: lines end at a line feed, and columns count characters. Both are
counted from one.
-/
namespace ObjectNavigation.Source

structure Location where
  line : Nat
  column : Nat
  deriving DecidableEq, Inhabited

namespace Location

def text (location : Location) : String :=
  toString location.line ++ ":" ++ toString location.column

def after (passed : List Char) : Location where
  line := passed.count '\n' + 1
  column := (passed.reverse.takeWhile (· != '\n')).length + 1

end Location
end ObjectNavigation.Source
