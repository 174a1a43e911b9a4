/-!
Values that flow through an expression. Scalars are held in place, a list carries the identity
it was given when it was made, and an object is a name for a record of the heap. This module
holds no heap: what an object is called and what it contains is in `Value.Heap`.
-/
namespace ObjectNavigation

abbrev ObjectId := Nat

/-- Tells two lists with the same items apart: every newly made list has a new one. -/
abbrev ListId := Nat

inductive Value where
  | null
  | bool (value : Bool)
  | int (value : Int64)
  | float (value : Float)
  | string (value : String)
  | list (id : ListId) (items : List Value)
  | object (id : ObjectId)
  deriving Inhabited

namespace Value

def isNull : Value → Bool
  | null => true
  | _ => false

def isNumeric : Value → Bool
  | int _ | float _ => true
  | _ => false

def isString : Value → Bool
  | string _ => true
  | _ => false

def bool? : Value → Option Bool
  | bool b => some b
  | _ => none

def int? : Value → Option Int64
  | int n => some n
  | _ => none

/-- A number as a float; integers are widened. -/
def float? : Value → Option Float
  | int n => some n.toFloat
  | float x => some x
  | _ => none

def string? : Value → Option String
  | string s => some s
  | _ => none

def items? : Value → Option (List Value)
  | list _ items => some items
  | _ => none

def object? : Value → Option ObjectId
  | object o => some o
  | _ => none

/-- The integer `n`, if it is one of the 64-bit signed range. -/
def exact (n : Int) : Option Int64 :=
  if Int64.minValue.toInt ≤ n ∧ n ≤ Int64.maxValue.toInt then some (Int64.ofInt n) else none

theorem exact_eq_some_iff {n : Int} {k : Int64} : exact n = some k ↔ k.toInt = n := by
  constructor
  · intro h
    unfold exact at h
    split at h
    next hr =>
      cases h
      exact Int64.toInt_ofInt_of_le hr.1 (Int.lt_of_le_of_lt hr.2 (by decide))
    next => cases h
  · rintro rfl
    unfold exact
    rw [if_pos ⟨Int64.minValue_le_toInt k, Int64.toInt_le k⟩, Int64.ofInt_toInt]

theorem exact_eq_none_iff {n : Int} :
    exact n = none ↔ n < -9223372036854775808 ∨ 9223372036854775808 ≤ n := by
  have lo : Int64.minValue.toInt = -9223372036854775808 := by decide
  have hi : Int64.maxValue.toInt = 9223372036854775807 := by decide
  unfold exact
  rw [lo, hi]
  split
  next h => simp only [reduceCtorEq, false_iff]; omega
  next h => simp only [true_iff]; omega

end Value
end ObjectNavigation
