/-!
The shortest decimal that reads back as a given binary floating point number. A finite double is
`mantissa * 2 ^ exponent`; the reals that round to it form an interval, and among the decimals of
that interval with the fewest digits the one nearest to the number is chosen. All comparisons are
between natural numbers.
-/
namespace ObjectNavigation.Decimal

/-- The finite non-negative number `mantissa * 2 ^ exponent`. `boundary` says that the gap to the
next smaller double is half of the gap to the next larger one. -/
structure Binary where
  mantissa : Nat
  exponent : Int
  boundary : Bool

/-- The number `digits * 10 ^ exponent`. -/
structure Numeral where
  digits : Nat
  exponent : Int

def Binary.ofBits (bits : UInt64) : Binary :=
  let fraction : Nat := bits.toNat % Nat.pow 2 52
  let biased : Nat := bits.toNat / Nat.pow 2 52 % Nat.pow 2 11
  if biased = 0 then ⟨fraction, -1074, false⟩
  else ⟨Nat.pow 2 52 + fraction, (biased : Int) - 1075, fraction = 0 && biased > 1⟩

/-- The three points of the rounding interval, lower end, number and upper end, as numerators
over one denominator. -/
structure Interval where
  low : Nat
  value : Nat
  high : Nat
  denominator : Nat
  closed : Bool

def Binary.interval (x : Binary) : Interval :=
  let shift := x.exponent - 2
  let up := Nat.pow 2 shift.toNat
  { low := (4 * x.mantissa - if x.boundary then 1 else 2) * up
    value := 4 * x.mantissa * up
    high := (4 * x.mantissa + 2) * up
    denominator := Nat.pow 2 (-shift).toNat
    closed := x.mantissa % 2 = 0 }

def Interval.scale (i : Interval) (exponent : Int) : Interval :=
  let up := Nat.pow 10 (-exponent).toNat
  { i with
    low := i.low * up
    value := i.value * up
    high := i.high * up
    denominator := i.denominator * Nat.pow 10 exponent.toNat }

/-- Whether the whole number `n` rounds to the number of the interval. -/
def Interval.holds (i : Interval) (n : Nat) : Bool :=
  let point := n * i.denominator
  if i.closed then i.low ≤ point && point ≤ i.high else i.low < point && point < i.high

/-- The whole number nearest to the number of the interval among those that round to it. -/
def Interval.nearest? (i : Interval) : Option Nat :=
  let below := i.value / i.denominator
  let above := below + 1
  match i.holds below, i.holds above with
  | false, false => none
  | true, false => some below
  | false, true => some above
  | true, true =>
    if i.value - below * i.denominator < above * i.denominator - i.value then some below
    else some above

def digitCount (n : Nat) : Nat :=
  (Nat.toDigits 10 n).length

/-- The position of the first decimal digit of a positive number: `10 ^ leading ≤ value`, and it
is less than ten times that. -/
def Interval.leading (i : Interval) : Int :=
  if i.denominator ≤ i.value then digitCount (i.value / i.denominator) - 1
  else
    let places := digitCount (i.denominator / i.value)
    if i.denominator ≤ i.value * Nat.pow 10 (places - 1) then 1 - (places : Int)
    else -(places : Int)

def stripZeros : Nat → Numeral → Numeral
  | 0, d => d
  | fuel + 1, d =>
    if d.digits % 10 = 0 then stripZeros fuel ⟨d.digits / 10, d.exponent + 1⟩ else d

/-- Tries `count`, `count + 1`, … digits, `tries` times. -/
def Interval.search (i : Interval) (leading : Int) : Nat → Nat → Option Numeral
  | 0, _ => none
  | tries + 1, count =>
    let exponent := leading - count + 1
    match (i.scale exponent).nearest? with
    | some digits => some (stripZeros count ⟨digits, exponent⟩)
    | none => i.search leading tries (count + 1)

/-- The shortest decimal of a positive double; seventeen digits always suffice. -/
def shortest (x : Binary) : Numeral :=
  let i := x.interval
  (i.search i.leading 17 1).getD ⟨0, 0⟩

end ObjectNavigation.Decimal
