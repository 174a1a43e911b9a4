/-!
What a literal stands for. Byte and C string literals are part of the syntax, but have no value
here.
-/
namespace ObjectNavigation.Source

inductive Literal where
  /-- A whole number; its suffix does not matter. -/
  | int (n : Nat)
  /-- `digits * 10 ^ exponent`. -/
  | float (digits : Nat) (exponent : Int)
  | text (s : String)
  | bool (b : Bool)
  | bytes
  deriving DecidableEq, Inhabited

end ObjectNavigation.Source
