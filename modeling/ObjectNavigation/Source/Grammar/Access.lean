import ObjectNavigation.Source.Grammar.Pattern
/-!
Accesses and calls: what can follow an atom. Two positions in a row look like a number and are
taken apart.
-/
namespace ObjectNavigation.Source
namespace Grammar
open TokenParser

/-- The parts between points; a part after a last point is left out if it is empty. -/
def pointParts (cs : List Char) : List (List Char) :=
  let parts := cs.splitOn '.'
  if parts.getLast? = some [] then parts.dropLast else parts

def positionTokens (offset : Nat) (positions : List Nat) : List Token :=
  (positions.map fun n => Token.literal offset (toString n) (.int n)).intersperse
    (.mark offset '.' false)

/-- Positions after a point that together look like a number. The result is empty if there is no
such number; otherwise it comes with whether another point follows. -/
def positions? : TokenParser (List Nat × Bool) := do
  match (← ahead).head? with
  | some (.literal offset text (.float _ _)) =>
    let cs := text.toList
    let more := cs.getLast? == some '.'
    match (pointParts cs).mapM index? with
    | some found =>
      let start ← here
      discard token
      reprint start <| positionTokens offset found ++ if more then [.mark offset '.' false] else []
      return (found, more)
    | none => failure
  | _ => return ([], true)

def afterPoint (g : Grammar) (start : Nat) (base : Expr) : TokenParser Expr := do
  let (positions, more) ← positions?
  let base := positions.foldl (fun e n => .field e (toString n)) base
  unless more do return base
  if ← word? "await" then return .other .plain (← since start)
  let named := Next.name (← ahead)
  let name ← member
  let generic := named && Next.mark "::" (← ahead)
  if generic then discard <| genericArguments g
  if generic || named && Next.group .paren (← ahead) then
    return .invoke base name (← group .paren (items g.whole))
  else return .field base name

/-- An access or a call after an expression that began at `start`. The result is the longer
expression, or the same at the right if nothing follows it. -/
def trailer (g : Grammar) (start : Nat) (e : Expr) : TokenParser (Expr ⊕ Expr) := do
  let tokens ← ahead
  if Next.group .paren tokens then
    let target ← since start
    let arguments ← group .paren (items g.whole)
    match e with
    | .path segments _ _ => return .inl (.call segments arguments)
    | _ => return .inl (.apply target)
  else if Next.mark "." tokens && !Next.mark ".." tokens && !e.isRange then
    discard <| mark "."
    return .inl (← afterPoint g start e)
  else if Next.group .bracket tokens then
    discard <| group .bracket g.whole
    return .inl (.other .plain (← since start))
  else if Next.mark "?" tokens && !e.isRange then
    discard <| mark "?"
    return .inl (.other .plain (← since start))
  else return .inr e

def trailers (g : Grammar) (start : Nat) (e : Expr) : TokenParser Expr :=
  untilDone (trailer g start) e

end Grammar
end ObjectNavigation.Source
