import ObjectNavigation.Builder.Finish
import ObjectNavigation.Decimal.Nearest
import ObjectNavigation.Source.Expr
import ObjectNavigation.Source.Location
/-!
From a written expression to a tree. Nodes are made operands first, from left to right, and the
first piece that has no place in a tree is the error.
-/
namespace ObjectNavigation.Source

/-- Why an expression has no tree, with the place and the text of the culprit. -/
structure LoweringError where
  message : String
  location : Option Location := none
  snippet : Option String := none
  deriving DecidableEq, Inhabited

namespace LoweringError

def text (error : LoweringError) : String :=
  "Parse error: " ++ error.message ++ error.location.elim "" (" at " ++ ·.text) ++
    error.snippet.elim "" ("\n" ++ ·)

def ofBuildError (error : BuildError) : LoweringError where
  message := "tree construction failed: " ++ error.message

def unsupported (source : List Char) (what : String) (offset : Nat) (snippet : String) :
    LoweringError where
  message := "unsupported " ++ what
  location := some (Location.after (source.take offset))
  snippet := some snippet

/-- The error that these tokens have no place in a tree. -/
def unsupportedTokens (source : List Char) (what : String) (tokens : List Token) : LoweringError :=
  unsupported source what (Token.listOffset tokens) (Token.listText tokens)

def tooLarge (source : List Char) (offset : Nat) : LoweringError where
  message := "syntax error: number too large to fit in target type"
  location := some (Location.after (source.take offset))

end LoweringError

def Literal.value (source : List Char) (offset : Nat) (text : String) :
    Literal → Except LoweringError Value
  | int n =>
    if n < Nat.pow 2 63 then .ok (.int (Int64.ofNat n)) else .error (.tooLarge source offset)
  | float digits exponent => .ok (.float (Decimal.Numeral.nearest ⟨digits, exponent⟩))
  | .text s => .ok (.string s)
  | bool b => .ok (.bool b)
  | bytes => .error (.unsupported source "literal" offset text)

def operation? (operator : String) : Option Operation :=
  [Operation.add, .subtract, .multiply, .divide].find? fun op => op.symbol = operator

abbrev Lowering := StateT Builder (Except LoweringError)

namespace Lowering

def leaf (body : Body) : Lowering NodeId := fun builder =>
  (builder.leaf body).mapError .ofBuildError

def branch (body : Body) (children : List NodeId) : Lowering NodeId := fun builder =>
  (builder.branch body (children.map some)).mapError .ofBuildError

end Lowering

/-- What a call on the last segment of a path is a call of. -/
def callBody (segments : List String) : Option Body :=
  segments.getLast?.map fun name =>
    match segments.dropLast with
    | [] => .method name
    | types => .staticMethod (".".intercalate types) name

namespace Expr
open Lowering

mutual

def lower (source : List Char) : Expr → Lowering NodeId
  | literal offset text value => do leaf (.const (← value.value source offset text))
  | path segments simple tokens =>
    match segments, simple with
    | [name], true => leaf (if name = "null" then .const .null else .property name)
    | _, _ => throw (.unsupportedTokens source "path" tokens)
  | field base name => do
    let base ← base.lower source
    branch .chain [base, ← leaf (.property name)]
  | invoke receiver method arguments => do
    let receiver ← receiver.lower source
    let arguments ← lowerAll source arguments
    branch .chain [receiver, ← branch (.method method) arguments]
  | call segments arguments =>
    match callBody segments with
    | some body => do branch body (← lowerAll source arguments)
    | none => throw (.unsupportedTokens source "call target" [])
  | apply target => throw (.unsupportedTokens source "call target" target)
  | binary operator offset left right => do
    let left ← left.lower source
    let right ← right.lower source
    match operation? operator with
    | some op => branch (.arithmetic op) [left, right]
    | none => throw (.unsupported source "operator" offset operator)
  | unary operator offset operand =>
    if operator = "-" then do branch .negate [← operand.lower source]
    else throw (.unsupported source "operator" offset operator)
  | list items => do branch .list (← lowerAll source items)
  | paren inner => inner.lower source
  | other _ tokens => throw (.unsupportedTokens source "expression" tokens)

def lowerAll (source : List Char) : List Expr → Lowering (List NodeId)
  | [] => return []
  | e :: rest => do
    let id ← e.lower source
    return id :: (← lowerAll source rest)

end

def tree (source : List Char) (e : Expr) : Except LoweringError Tree := do
  let (root, builder) ← e.lower source ∅
  (builder.finish root).mapError .ofBuildError

end Expr
end ObjectNavigation.Source
