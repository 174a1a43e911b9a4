import ObjectNavigation.Source.Grammar.Pattern
import ObjectNavigation.Source.Operator
/-!
Operands joined by binary operators, casts and ranges. Comparisons cannot be chained, and a range
is no left operand.
-/
namespace ObjectNavigation.Source
namespace Grammar
open TokenParser

def rangeStops (structs : Bool) (tokens : List Token) : Bool :=
  tokens.isEmpty || Next.mark "," tokens || Next.mark ";" tokens ||
    Next.mark "." tokens && !Next.mark ".." tokens || Next.mark "?" tokens ||
    Next.mark "=>" tokens || !structs && Next.group .brace tokens || Next.word "as" tokens ||
    ["=", "+", "/", "%", "^", ">", "<=", "!=", "-=", "*=", "&=", "|=", "<<="].any fun operator =>
      Next.mark operator tokens

/-- Whether what follows the type of a cast would have to be in parentheses. -/
def castStops (tokens : List Token) : Bool :=
  Next.mark "." tokens && !Next.mark ".." tokens || Next.mark "?" tokens ||
    Next.group .bracket tokens || Next.group .paren tokens

/-- The right operand of an operator: operators that bind more strongly belong to it, and an
assignment to the right of an assignment. -/
def rightOperand (g : Grammar) (structs : Bool) (level : Nat) : TokenParser Expr := do
  let start ← here
  untilDone (fun e => do
    let tokens ← ahead
    let next := levelAhead tokens
    if level < next || level == next && next == Level.assign then
      let e ← g.continued structs start e next
      if (← ahead).length == tokens.length then return .inr e else return .inl e
    else return .inr e) (← g.operand structs)

def rangeTail (g : Grammar) (structs : Bool) : TokenParser Unit := do
  let needed ← rangeDots false
  if needed || !rangeStops structs (← ahead) then
    discard <| rightOperand g structs Level.range

/-- Whether an expression is a comparison that is not in parentheses. -/
def compares : Expr → Bool
  | .binary operator _ _ _ => isComparison operator
  | _ => false

/-- Joins an expression with one operator after it that binds at least as strongly as `level`. The
result is at the right if there is none. -/
def continuation (g : Grammar) (structs : Bool) (start level : Nat) (left : Expr) :
    TokenParser (Expr ⊕ Expr) := do
  if left.isRange then return .inr left
  let tokens ← ahead
  match binaryOperator? tokens with
  | some (operator, found) =>
    if found < level then return .inr left
    require !(found == Level.compare && compares left)
    let offset ← mark operator
    return .inl (.binary operator offset left (← rightOperand g structs found))
  | none =>
    if level ≤ Level.assign && assignmentAhead tokens then
      discard <| mark "="
      discard <| rightOperand g structs Level.assign
      return .inl (.other left.continuedShape (← since start))
    else if level ≤ Level.range && Next.mark ".." tokens then
      rangeTail g structs
      return .inl (.other .range (← since start))
    else if level ≤ Level.cast && Next.word "as" tokens then
      word "as"
      discard <| g.type false
      require !(castStops (← ahead))
      return .inl (.other left.continuedShape (← since start))
    else return .inr left

/-- Joins an expression with the operators after it that bind at least as strongly as `level`. -/
def continuedStep (g : Grammar) (structs : Bool) (start : Nat) (e : Expr) (level : Nat) :
    TokenParser Expr :=
  untilDone (continuation g structs start level) e

end Grammar
end ObjectNavigation.Source
