import ObjectNavigation.Decimal.Shortest
/-!
How a float is written: which magnitudes are positional, and the spellings of the numbers that
have no digits. A float always shows that it is one, by a point or by an exponent.
-/
namespace ObjectNavigation.Decimal

structure Style where
  /-- A leading digit at or above this position is written with an exponent. -/
  positionalBelow : Int
  /-- A leading digit below this position is written with an exponent. -/
  positionalFrom : Int
  nan : String
  infinity : String
  zero : String

/-- Positional from `0.0001` to just below ten to the sixteenth. -/
def style : Style where
  positionalBelow := 16
  positionalFrom := -4
  nan := "NaN"
  infinity := "inf"
  zero := "0.0"

/-- `d.ddd` and the position of the leading digit. -/
def scientific (digits : String) (leading : Int) : String :=
  let tail := (digits.drop 1).toString
  (digits.take 1).toString ++ (if tail.isEmpty then "" else "." ++ tail) ++ "e" ++ toString leading

/-- All places written out, with at least one digit on each side of the point. -/
def positional (digits : String) (exponent : Int) : String :=
  let whole := (digits.length : Int) + exponent
  if 0 ≤ exponent then digits ++ "".pushn '0' exponent.toNat ++ ".0"
  else if 0 < whole then
    (digits.take whole.toNat).toString ++ "." ++ (digits.drop whole.toNat).toString
  else "0." ++ "".pushn '0' (-whole).toNat ++ digits

def Style.magnitude (s : Style) (d : Numeral) : String :=
  let digits := toString d.digits
  let leading := (digits.length : Int) + d.exponent - 1
  if s.positionalFrom ≤ leading ∧ leading < s.positionalBelow then positional digits d.exponent
  else scientific digits leading

def Style.text (s : Style) (bits : UInt64) : String :=
  let negative := bits.toNat / Nat.pow 2 63 = 1
  let biased := bits.toNat / Nat.pow 2 52 % Nat.pow 2 11
  let fraction := bits.toNat % Nat.pow 2 52
  if biased = 2047 ∧ fraction ≠ 0 then s.nan
  else
    (if negative then "-" else "") ++
      if biased = 2047 then s.infinity
      else if biased = 0 ∧ fraction = 0 then s.zero
      else s.magnitude (shortest (Binary.ofBits bits))

def floatText (x : Float) : String :=
  style.text x.toBits

end ObjectNavigation.Decimal
