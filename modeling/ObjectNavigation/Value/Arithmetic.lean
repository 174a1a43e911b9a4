import ObjectNavigation.Failure
import ObjectNavigation.Value.Text
/-!
The four operations on values. Two integers give the exact integer or an overflow, and division
of integers truncates toward zero and has no answer for a zero divisor. A float on either side
makes the operation one of floats. Addition with a string on either side writes both sides after
one another.
-/
namespace ObjectNavigation

inductive Operation where
  | add
  | subtract
  | multiply
  | divide
  deriving DecidableEq, Inhabited

namespace Operation

def symbol : Operation → String
  | add => "+"
  | subtract => "-"
  | multiply => "*"
  | divide => "/"

def onInts : Operation → Int → Int → Int
  | add, a, b => a + b
  | subtract, a, b => a - b
  | multiply, a, b => a * b
  | divide, a, b => a.tdiv b

def onFloats : Operation → Float → Float → Float
  | add, a, b => a + b
  | subtract, a, b => a - b
  | multiply, a, b => a * b
  | divide, a, b => a / b

/-- The integer result `n` of the operation, if it is in range. -/
def checked (symbol : String) (n : Int) : Except EvalError Value :=
  match Value.exact n with
  | some k => .ok (.int k)
  | none => .error (.overflow symbol)

def numeric (op : Operation) (heap : Heap) (left right : Value) : Except EvalError Value :=
  match left, right with
  | .int a, .int b =>
    if op = divide ∧ b = 0 then .error .divisionByZero
    else checked op.symbol (op.onInts a.toInt b.toInt)
  | _, _ =>
    match left.float?, right.float? with
    | some a, some b => .ok (.float (op.onFloats a b))
    | _, _ => .error (.invalidOperands op.symbol (left.typeName heap) (right.typeName heap))

def apply (op : Operation) (heap : Heap) (left right : Value) : Except EvalError Value :=
  if op = add ∧ (left.isString || right.isString) then
    .ok (.string (left.display heap ++ right.display heap))
  else op.numeric heap left right

end Operation

def Value.negate (heap : Heap) : Value → Except EvalError Value
  | .int n => Operation.checked "-" (-n.toInt)
  | .float x => .ok (.float (-x))
  | value => .error (.unexpected heap "number" value)

end ObjectNavigation
