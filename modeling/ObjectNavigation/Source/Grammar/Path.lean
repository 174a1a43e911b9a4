import ObjectNavigation.Source.Grammar.Parameter
import ObjectNavigation.Source.Number
/-!
Paths and their generic arguments, which have no part in what a path means.
-/
namespace ObjectNavigation.Source
namespace Grammar
open TokenParser

/-- The name of a field, or its position, which is written in decimal. -/
def member : TokenParser String := do
  if Next.name (← ahead) then return ← name
  let start ← here
  match ← token with
  | .literal offset text _ =>
    match index? text.toList with
    | some n =>
      reprint start [.literal offset (toString n) (.int n)]
      return toString n
    | none => failure
  | _ => failure

/-! ### Generic arguments -/

def argumentStops (tokens : List Token) : Bool :=
  Next.mark "," tokens || Next.mark ">" tokens

/-- An argument; the result tells whether it is a lifetime. -/
def genericArgument (g : Grammar) : TokenParser Bool := do
  if Next.lifetime (← ahead) && !Next.mark "+" (← second) then
    lifetime
    return true
  if constantAhead (← ahead) then
    constant g
    return false
  if (← g.type true) == .segment then
    if ← mark? "=" then
      if constantAhead (← ahead) then constant g else discard <| g.type true
    else if ← mark? ":" then discard <| boundList g .constraint argumentStops
  return false

/-- Arguments in angle brackets. The result tells whether there are any. -/
def genericArguments (g : Grammar) : TokenParser Bool := do
  discard <| mark? "::"
  angled (genericArgument g)

def returnType (g : Grammar) (plus : Bool) : TokenParser Unit := do
  if ← mark? "->" then discard <| g.type plus

/-! ### Paths -/

inductive Arguments where
  | absent
  /-- Empty angle brackets, which with what belongs to them start at a place. -/
  | empty (start : Nat)
  | given
  deriving DecidableEq, Inhabited

structure Path where
  segments : List String := []
  /-- Whether it starts from a type. -/
  qualified : Bool := false
  /-- Whether it starts with two colons. -/
  leading : Bool := false
  /-- Whether any segment has arguments, be they empty. -/
  arguments : Bool := false
  last : Arguments := .absent

namespace Path

def simple (path : Path) : Bool :=
  !path.qualified && !path.leading && !path.arguments && path.segments.length == 1

def push (path : Path) (segment : String) (arguments : Arguments) : Path :=
  { path with
    segments := path.segments ++ [segment]
    arguments := path.arguments || arguments != .absent
    last := arguments }

end Path

/-- Whether arguments in angle brackets follow a segment. In an expression they need two colons
before them. -/
def argumentsAhead (inExpression : Bool) (tokens : List Token) : Bool :=
  !inExpression && Next.mark "<" tokens && !Next.mark "<=" tokens && !Next.mark "<<=" tokens ||
    Next.mark "::" tokens && Next.mark "<" (skipToken (skipToken tokens))

def segment (g : Grammar) (inExpression : Bool) (path : Path) : TokenParser Path := do
  let tokens ← ahead
  if (pathWord tokens && !Next.word "Self" tokens) || Next.word "try" tokens then
    return path.push (← anyName) .absent
  let text ← if Next.word "Self" tokens then anyName else name
  if argumentsAhead inExpression (← ahead) then
    let start ← here
    let given ← genericArguments g
    return path.push text (if given then .given else .empty start)
  else return path.push text .absent

/-- Further segments, up to a parenthesis. -/
def furtherSegments (g : Grammar) (inExpression : Bool) (path : Path) : TokenParser Path :=
  untilDone (fun path => do
    if Next.mark "::" (← ahead) && !Next.group .paren (← third) then
      discard <| mark "::"
      return .inl (← segment g inExpression path)
    else return .inr path) path

def path (g : Grammar) (inExpression : Bool) : TokenParser Path := do
  let leading ← mark? "::"
  furtherSegments g inExpression (← segment g inExpression { leading })

/-- A path that may start from a type in angle brackets, seen as something else or not. -/
def qualifiedPath (g : Grammar) (inExpression : Bool) : TokenParser Path := do
  unless ← mark? "<" do return ← path g inExpression
  discard <| g.type true
  let seen ← if ← word? "as" then path g false else pure { leading := true }
  discard <| mark ">"
  discard <| mark "::"
  let first ← segment g inExpression { seen with qualified := true }
  untilDone (fun path => do
    if ← mark? "::" then return .inl (← segment g inExpression path)
    else return .inr path) first

def bang : TokenParser Delimiter := do
  discard <| mark "!"
  anyGroup

def bangAhead (tokens : List Token) : Bool :=
  Next.mark "!" tokens && !Next.mark "!=" tokens

end Grammar
end ObjectNavigation.Source
