import ObjectNavigation.Decimal.Shortest
/-!
The double nearest to a decimal. The quotient of two natural numbers is brought to 53 binary
digits, or to the fixed last place of the smallest doubles, and rounded once; a tie goes to the
even neighbour. What is too large becomes infinite.
-/
namespace ObjectNavigation.Decimal

/-- The whole number nearest to `numerator / denominator`, the even one of two equally near. -/
def roundHalfEven (numerator denominator : Nat) : Nat :=
  let below := numerator / denominator
  let twice := 2 * (numerator % denominator)
  if twice < denominator then below
  else if denominator < twice then below + 1
  else below + below % 2

/-- The exponent of the last binary place that the double nearest to a positive quotient has. -/
def lastPlace (numerator denominator : Nat) : Int :=
  let place : Int := (numerator.log2 : Int) - denominator.log2 - 53
  let fits :=
    numerator * Nat.pow 2 (-place).toNat < denominator * Nat.pow 2 place.toNat * Nat.pow 2 53
  max (-1074) (if fits then place else place + 1)

def infinityBits : Nat := 2047 * Nat.pow 2 52

/-- The bits of the double nearest to a positive quotient. A mantissa that is rounded up to the
next power of two carries into the exponent by itself. -/
def quotientBits (numerator denominator : Nat) : Nat :=
  let place := lastPlace numerator denominator
  let mantissa :=
    roundHalfEven (numerator * Nat.pow 2 (-place).toNat) (denominator * Nat.pow 2 place.toNat)
  min infinityBits ((place + 1074).toNat * Nat.pow 2 52 + mantissa)

/-- The bits of the double nearest to a decimal. The decimals that no double is near to are
decided by the position of their first digit. -/
def Numeral.nearestBits (d : Numeral) : Nat :=
  let leading := (digitCount d.digits : Int) + d.exponent
  if d.digits = 0 ∨ leading < -330 then 0
  else if 310 < leading then infinityBits
  else quotientBits (d.digits * Nat.pow 10 d.exponent.toNat) (Nat.pow 10 (-d.exponent).toNat)

theorem Numeral.nearestBits_le (d : Numeral) : d.nearestBits ≤ infinityBits := by
  rw [nearestBits]
  split
  · exact Nat.zero_le _
  · split
    · exact Nat.le_refl _
    · exact Nat.min_le_left _ _

def Numeral.nearest (d : Numeral) : Float :=
  Float.ofBits (UInt64.ofNat d.nearestBits)

end ObjectNavigation.Decimal
