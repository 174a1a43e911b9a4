import ObjectNavigation.Source.Grammar.Access
import ObjectNavigation.Source.Grammar.Atom
/-!
Operands and whole expressions: an atom with what follows it, the operators before it, and the
operators after it.
-/
namespace ObjectNavigation.Source
namespace Grammar
open TokenParser

/-- A reference, of which only the tokens are kept. -/
def reference (g : Grammar) (structs : Bool) : TokenParser Unit := do
  discard <| mark "&"
  let next ← second
  if Next.word "raw" (← ahead) && (Next.word "mut" next || Next.word "const" next) then
    word "raw"
    unless ← word? "mut" do word "const"
  else discard <| word? "mut"
  discard <| g.operand structs

/-- An operand. Attributes belong to the whole of an atom with what follows it; a range that
starts with its dots has none. -/
def operandStep (g : Grammar) (structs : Bool) : TokenParser Expr := do
  let start ← here
  let before ← ahead
  attributes g
  let tokens ← ahead
  if Next.mark "&" tokens then
    reference g structs
    return .other .plain (← since start)
  match ["*", "!", "-"].find? fun operator => Next.mark operator tokens with
  | some operator =>
    let offset ← mark operator
    return .unary operator offset (← g.operand structs)
  | none =>
    let first ← here
    let e ← atomStep g structs
    let e ← trailers g first (e.spanning (← since first))
    if e.shape == .spelled then respell start before
    require !(e.isRange && start < first)
    return e.spanning (← since start)

/-! ### Expressions -/

def expressionStep (g : Grammar) (structs : Bool) : TokenParser Expr := do
  let start ← here
  continuedStep g structs start (← operandStep g structs) Level.lowest

def blockAhead : TokenParser Bool := do
  let tokens ← ahead
  let next ← second
  return Next.word "if" tokens || Next.word "while" tokens || Next.word "loop" tokens ||
    Next.word "match" tokens || Next.word "unsafe" tokens ||
    (Next.word "const" tokens || Next.word "try" tokens) && Next.group .brace next ||
    Next.word "for" tokens && !parametersAhead next ||
    Next.lifetime tokens || Next.group .brace tokens

/-- Gives an expression that was read from `first` on the attributes before it, from `start` on. A
range is put in parentheses after them, and an expression that is kept as it is spelled loses
them. -/
def attributed (start first : Nat) (e : Expr) : TokenParser Expr := do
  if start < first then
    let tokens ← since first
    if e.startsSpelled then reprint start tokens
    else if e.isRange then reprint first [.parenthesized tokens]
  return e.spanning (← since start)

/-- An expression at the beginning of a statement. After a block only an access goes on. -/
def statementStep (g : Grammar) : TokenParser Expr := do
  let start ← here
  attributes g
  if ← blockAhead then
    let e := (← atomStep g true).spanning (← since start)
    let tokens ← ahead
    if Next.mark "." tokens && !Next.mark ".." tokens || Next.mark "?" tokens then
      let e := (← trailers g start e).spanning (← since start)
      continuedStep g true start e Level.lowest
    else return e
  else
    let first ← here
    let e ← attributed start first (← operandStep g true)
    continuedStep g true start e Level.lowest

end Grammar
end ObjectNavigation.Source
