import Mathlib.Algebra.Order.Field.Power
import Mathlib.Data.Rat.Cast.Order
import Mathlib.Tactic.FieldSimp
import Mathlib.Tactic.Linarith
import Mathlib.Tactic.NormNum
import Mathlib.Tactic.Positivity
import Mathlib.Tactic.Ring
import ObjectNavigation.Decimal.Nearest

/-!
Rounding to the nearest double, over the rational numbers. Every number in the rounding interval of
a double is brought to the bits of that double.
-/

namespace ObjectNavigation.Decimal

def Numeral.value (d : Numeral) : ℚ :=
  d.digits * (10 : ℚ) ^ d.exponent

namespace Binary

def value (x : Binary) : ℚ :=
  x.mantissa * (2 : ℚ) ^ x.exponent

def low (x : Binary) : ℚ :=
  (x.mantissa - if x.boundary then 1 / 4 else 1 / 2) * (2 : ℚ) ^ x.exponent

def high (x : Binary) : ℚ :=
  (x.mantissa + 1 / 2) * (2 : ℚ) ^ x.exponent

/-- Whether a number rounds to this one. The ends of the interval do if the mantissa is even. -/
def Takes (x : Binary) (v : ℚ) : Prop :=
  x.low ≤ v ∧ v ≤ x.high ∧ (x.mantissa % 2 = 1 → x.low < v ∧ v < x.high)

end Binary

/-! ### Rounding to a whole number -/

/-- Whether a whole number is the nearest to a number, and the even one of two nearest ones. -/
def Rounds (v : ℚ) (n : Nat) : Prop :=
  (n : ℚ) - 1 / 2 ≤ v ∧ v ≤ n + 1 / 2 ∧ (n % 2 = 1 → (n : ℚ) - 1 / 2 < v ∧ v < n + 1 / 2)

theorem rounds_div_iff {v unit : ℚ} (hunit : 0 < unit) (n : Nat) :
    Rounds (v / unit) n ↔ (n - 1 / 2) * unit ≤ v ∧ v ≤ (n + 1 / 2) * unit ∧
      (n % 2 = 1 → (n - 1 / 2) * unit < v ∧ v < (n + 1 / 2) * unit) := by
  rw [Rounds, le_div_iff₀ hunit, div_le_iff₀ hunit, lt_div_iff₀ hunit, div_lt_iff₀ hunit]

theorem rounds_quotient {numerator denominator n : Nat} (hpos : 0 < denominator)
    (h : Rounds (numerator / denominator) n) :
    2 * (n * denominator) ≤ 2 * numerator + denominator ∧
      2 * numerator ≤ 2 * (n * denominator) + denominator ∧
      (n % 2 = 1 → 2 * (n * denominator) < 2 * numerator + denominator ∧
        2 * numerator < 2 * (n * denominator) + denominator) := by
  have hd : (0 : ℚ) < denominator := by exact_mod_cast hpos
  obtain ⟨hlow, hhigh, hodd⟩ := (rounds_div_iff hd n).1 h
  refine ⟨?_, ?_, fun hn => ?_⟩
  · have hlow' : (2 * (n * denominator) : ℚ) ≤ 2 * numerator + denominator := by linarith
    exact_mod_cast hlow'
  · have hhigh' : (2 * numerator : ℚ) ≤ 2 * (n * denominator) + denominator := by linarith
    exact_mod_cast hhigh'
  · obtain ⟨hlow, hhigh⟩ := hodd hn
    have hlow' : (2 * (n * denominator) : ℚ) < 2 * numerator + denominator := by linarith
    have hhigh' : (2 * numerator : ℚ) < 2 * (n * denominator) + denominator := by linarith
    exact ⟨by exact_mod_cast hlow', by exact_mod_cast hhigh'⟩

theorem roundHalfEven_eq {numerator denominator n : Nat} (hpos : 0 < denominator)
    (h : Rounds (numerator / denominator) n) : roundHalfEven numerator denominator = n := by
  obtain ⟨hlow, hhigh, hodd⟩ := rounds_quotient hpos h
  have hsplit := Nat.div_add_mod numerator denominator
  have hmod := Nat.mod_lt numerator hpos
  set below := numerator / denominator with hbelow
  set rest := numerator % denominator with hrest
  -- The nearest number is the quotient or the next one.
  have hle : below ≤ n := by
    by_contra hlt
    have := Nat.mul_le_mul_left denominator (Nat.succ_le_of_lt (Nat.lt_of_not_le hlt))
    rw [Nat.mul_succ, Nat.mul_comm denominator n] at this
    omega
  have hge : n ≤ below + 1 := by
    by_contra hlt
    have := Nat.mul_le_mul_left denominator (Nat.succ_le_of_lt (Nat.lt_of_not_le hlt))
    rw [Nat.mul_succ, Nat.mul_succ, Nat.mul_comm denominator n] at this
    omega
  rw [roundHalfEven, ← hbelow, ← hrest]
  rcases Nat.lt_or_ge below n with hlt | hge'
  · obtain rfl : n = below + 1 := by omega
    rw [Nat.add_mul below 1, Nat.one_mul, Nat.mul_comm below] at hlow hhigh hodd
    split
    · omega
    · split <;> omega
  · obtain rfl : n = below := by omega
    rw [Nat.mul_comm below] at hlow hhigh hodd
    split
    · rfl
    · split <;> omega

/-! ### The last place -/

theorem zpow_eq_div (b : ℚ) (z : ℤ) : b ^ z = b ^ z.toNat / b ^ (-z).toNat := by
  rcases le_total 0 z with hz | hz
  · obtain ⟨n, rfl⟩ := Int.eq_ofNat_of_zero_le hz
    simp
  · obtain ⟨n, hn⟩ := Int.eq_ofNat_of_zero_le (Int.neg_nonneg.2 hz)
    obtain rfl : z = -(n : ℤ) := by omega
    simp

/-- The place of the last digit, such that there are 53 of them or it is the smallest of all. -/
def LastPlace (v : ℚ) (place : ℤ) : Prop :=
  -1074 ≤ place ∧ v < 2 ^ 53 * (2 : ℚ) ^ place ∧ (place = -1074 ∨ 2 ^ 52 * (2 : ℚ) ^ place ≤ v)

theorem LastPlace.le {v : ℚ} {place other : ℤ} (h : LastPlace v place)
    (hother : LastPlace v other) : place ≤ other := by
  obtain ⟨hsmall, hlt, _⟩ := hother
  obtain ⟨_, _, rfl | hle⟩ := h
  · exact hsmall
  · by_contra hgt
    have hstep : (2 : ℚ) ^ (other + 1) ≤ (2 : ℚ) ^ place :=
      zpow_le_zpow_right₀ (by norm_num) (by omega)
    rw [zpow_add_one₀ (by norm_num)] at hstep
    linarith

theorem LastPlace.eq {v : ℚ} {place other : ℤ} (h : LastPlace v place)
    (hother : LastPlace v other) : place = other :=
  le_antisymm (h.le hother) (hother.le h)

theorem LastPlace.max {v : ℚ} {place : ℤ} (hlt : v < 2 ^ 53 * (2 : ℚ) ^ place)
    (hle : 2 ^ 52 * (2 : ℚ) ^ place ≤ v) : LastPlace v (max (-1074) place) := by
  rcases le_total (-1074) place with hplace | hplace
  · rw [max_eq_right hplace]
    exact ⟨hplace, hlt, Or.inr hle⟩
  · rw [max_eq_left hplace]
    have hgrow : (2 : ℚ) ^ place ≤ (2 : ℚ) ^ (-1074 : ℤ) :=
      zpow_le_zpow_right₀ (by norm_num) hplace
    exact ⟨le_refl _, by linarith, Or.inl rfl⟩

theorem two_zpow_log2_le {n : Nat} (hn : 0 < n) : (2 : ℚ) ^ (n.log2 : ℤ) ≤ n := by
  rw [zpow_natCast]
  exact_mod_cast Nat.log2_self_le (by omega)

theorem lt_two_zpow_log2 (n : Nat) : (n : ℚ) < (2 : ℚ) ^ (n.log2 + 1 : ℤ) := by
  have hlt : n < 2 ^ (n.log2 + 1) := Nat.lt_log2_self
  exact_mod_cast hlt

theorem two_pow_mul_zpow (k : ℕ) (z : ℤ) : (2 : ℚ) ^ k * (2 : ℚ) ^ z = (2 : ℚ) ^ (k + z) := by
  rw [zpow_add₀ (by norm_num), zpow_natCast]

section Quotient
variable {numerator denominator : Nat} (hd : 0 < denominator)
include hd

theorem two_zpow_lt_quotient (hn : 0 < numerator) :
    (2 : ℚ) ^ (numerator.log2 - denominator.log2 - 1 : ℤ) < numerator / denominator := by
  have hd' : (0 : ℚ) < denominator := by exact_mod_cast hd
  rw [lt_div_iff₀ hd']
  calc (2 : ℚ) ^ (numerator.log2 - denominator.log2 - 1 : ℤ) * denominator
      < (2 : ℚ) ^ (numerator.log2 - denominator.log2 - 1 : ℤ) *
          (2 : ℚ) ^ (denominator.log2 + 1 : ℤ) := by
        have := lt_two_zpow_log2 denominator
        gcongr
    _ = (2 : ℚ) ^ (numerator.log2 : ℤ) := by rw [← zpow_add₀ (by norm_num)]; congr 1; omega
    _ ≤ numerator := two_zpow_log2_le hn

theorem quotient_lt_two_zpow :
    (numerator : ℚ) / denominator < (2 : ℚ) ^ (numerator.log2 - denominator.log2 + 1 : ℤ) := by
  have hd' : (0 : ℚ) < denominator := by exact_mod_cast hd
  rw [div_lt_iff₀ hd']
  calc (numerator : ℚ) < (2 : ℚ) ^ (numerator.log2 + 1 : ℤ) := lt_two_zpow_log2 numerator
    _ = (2 : ℚ) ^ (numerator.log2 - denominator.log2 + 1 : ℤ) *
          (2 : ℚ) ^ (denominator.log2 : ℤ) := by
        rw [← zpow_add₀ (by norm_num)]; congr 1; omega
    _ ≤ (2 : ℚ) ^ (numerator.log2 - denominator.log2 + 1 : ℤ) * denominator := by
        have := two_zpow_log2_le hd
        gcongr

/-- The comparison by which the last place is found. -/
theorem fits_iff (place : ℤ) :
    numerator * Nat.pow 2 (-place).toNat <
        denominator * Nat.pow 2 place.toNat * Nat.pow 2 53 ↔
      (numerator : ℚ) / denominator < 2 ^ 53 * (2 : ℚ) ^ place := by
  have hd' : (0 : ℚ) < denominator := by exact_mod_cast hd
  rw [zpow_eq_div 2, div_lt_iff₀ hd', mul_div_assoc', div_mul_eq_mul_div,
    lt_div_iff₀ (by positivity)]
  have hcast : (numerator : ℚ) * 2 ^ (-place).toNat < 2 ^ 53 * 2 ^ place.toNat * denominator ↔
      numerator * 2 ^ (-place).toNat < 2 ^ 53 * 2 ^ place.toNat * denominator := by
    exact_mod_cast Iff.rfl
  rw [hcast, Nat.mul_comm _ denominator, Nat.mul_comm (2 ^ 53), ← Nat.mul_assoc]
  rfl

theorem lastPlace_spec (hn : 0 < numerator) :
    LastPlace (numerator / denominator) (lastPlace numerator denominator) := by
  have hlow := two_zpow_lt_quotient hd hn
  have hhigh := @quotient_lt_two_zpow numerator denominator hd
  have hfits := @fits_iff numerator denominator hd (numerator.log2 - denominator.log2 - 53)
  rw [two_pow_mul_zpow 53] at hfits
  have htop : ((53 : ℕ) : ℤ) + (numerator.log2 - denominator.log2 - 53) =
      numerator.log2 - denominator.log2 := by omega
  rw [htop] at hfits
  rw [lastPlace]
  by_cases h : (numerator : ℚ) / denominator < (2 : ℚ) ^ (numerator.log2 - denominator.log2 : ℤ)
  · rw [if_pos (hfits.2 h)]
    apply LastPlace.max
    · rwa [two_pow_mul_zpow 53, htop]
    · rw [two_pow_mul_zpow 52]
      exact le_trans (le_of_eq (by congr 1; omega)) hlow.le
  · rw [if_neg (mt hfits.1 h)]
    apply LastPlace.max
    · rw [two_pow_mul_zpow 53]
      exact lt_of_lt_of_eq hhigh (by congr 1; omega)
    · rw [two_pow_mul_zpow 52]
      exact le_trans (le_of_eq (by congr 1; omega)) (not_lt.1 h)

end Quotient

/-! ### The bits of a quotient -/

theorem quotientBits_of_rounds {numerator denominator n : Nat} {place : ℤ} (hn : 0 < numerator)
    (hd : 0 < denominator) (hplace : LastPlace (numerator / denominator) place)
    (hround : Rounds (numerator / denominator / (2 : ℚ) ^ place) n) :
    quotientBits numerator denominator =
      min infinityBits ((place + 1074).toNat * Nat.pow 2 52 + n) := by
  have heq := (lastPlace_spec hd hn).eq hplace
  have hscaled : (numerator : ℚ) / denominator / (2 : ℚ) ^ place =
      ((numerator * Nat.pow 2 (-place).toNat : ℕ) : ℚ) /
        ((denominator * Nat.pow 2 place.toNat : ℕ) : ℚ) := by
    have hd' : (denominator : ℚ) ≠ 0 := by exact_mod_cast hd.ne'
    rw [zpow_eq_div 2, Nat.pow_eq, Nat.pow_eq]
    push_cast
    field_simp
  rw [hscaled] at hround
  have hpos : 0 < denominator * Nat.pow 2 place.toNat := Nat.mul_pos hd (Nat.pow_pos (by decide))
  rw [quotientBits, heq, roundHalfEven_eq hpos hround]

theorem ofBits_cases {bits : Nat} (h : bits < infinityBits) :
    bits < 2 ^ 52 ∧ Binary.ofBits (UInt64.ofNat bits) = ⟨bits, -1074, false⟩ ∨
    ∃ biased fraction : Nat, 1 ≤ biased ∧ fraction < 2 ^ 52 ∧ bits = biased * 2 ^ 52 + fraction ∧
      Binary.ofBits (UInt64.ofNat bits) =
        ⟨2 ^ 52 + fraction, (biased : ℤ) - 1075, fraction = 0 && biased > 1⟩ := by
  have hinf : infinityBits = 2047 * 2 ^ 52 := rfl
  rw [hinf] at h
  have hbits : (UInt64.ofNat bits).toNat = bits := by
    rw [UInt64.toNat_ofNat']
    exact Nat.mod_eq_of_lt (by omega)
  have hbiased : bits / 2 ^ 52 % 2 ^ 11 = bits / 2 ^ 52 := Nat.mod_eq_of_lt (by omega)
  have hunfold : Binary.ofBits (UInt64.ofNat bits) =
      if bits / 2 ^ 52 = 0 then ⟨bits % 2 ^ 52, -1074, false⟩
      else ⟨2 ^ 52 + bits % 2 ^ 52, ((bits / 2 ^ 52 : Nat) : ℤ) - 1075,
        bits % 2 ^ 52 = 0 && bits / 2 ^ 52 > 1⟩ := by
    rw [Binary.ofBits, hbits]
    simp only [Nat.pow_eq, hbiased]
  rw [hunfold]
  by_cases hzero : bits / 2 ^ 52 = 0
  · have hlt : bits < 2 ^ 52 := by omega
    rw [if_pos hzero, Nat.mod_eq_of_lt hlt]
    exact Or.inl ⟨hlt, rfl⟩
  · rw [if_neg hzero]
    exact Or.inr ⟨_, _, by omega, Nat.mod_lt _ (by decide), by omega, rfl⟩

/-- The bits are made of the last place and of what the number is there. -/
def Places (v : ℚ) (bits : Nat) : Prop :=
  ∃ place n, LastPlace v place ∧ Rounds (v / (2 : ℚ) ^ place) n ∧ 0 < v ∧
    (place + 1074).toNat * 2 ^ 52 + n = bits

theorem quotientBits_of_places {numerator denominator bits : Nat} (hd : 0 < denominator)
    (hfinite : bits < infinityBits) (h : Places (numerator / denominator) bits) :
    quotientBits numerator denominator = bits := by
  obtain ⟨place, n, hplace, hround, hpos, hbits⟩ := h
  have hn : 0 < numerator := by
    by_contra hzero
    obtain rfl : numerator = 0 := by omega
    rw [Nat.cast_zero, zero_div] at hpos
    exact lt_irrefl _ hpos
  rw [quotientBits_of_rounds hn hd hplace hround]
  exact (congrArg (min infinityBits) hbits).trans (min_eq_right hfinite.le)

section Takes
variable {v : ℚ}

theorem places_of_subnormal {bits : Nat} (hpos : 0 < bits) (hsmall : bits < 2 ^ 52)
    (h : Binary.Takes ⟨bits, -1074, false⟩ v) : Places v bits := by
  obtain ⟨hlow, hhigh, hodd⟩ := h
  simp only [Binary.low, Binary.high, Bool.false_eq_true, if_false] at hlow hhigh hodd
  have hunit : (0 : ℚ) < (2 : ℚ) ^ (-1074 : ℤ) := by positivity
  have hpos' : (1 : ℚ) ≤ bits := by exact_mod_cast hpos
  have hsmall' : (bits : ℚ) < 2 ^ 52 := by exact_mod_cast hsmall
  refine ⟨-1074, bits, ⟨le_refl _, ?_, Or.inl rfl⟩, ?_, ?_, Nat.zero_add bits⟩
  · nlinarith
  · exact (rounds_div_iff hunit bits).2 ⟨hlow, hhigh, hodd⟩
  · nlinarith

theorem places_below_power {biased : Nat} (hbiased : 1 < biased)
    (h : Binary.Takes ⟨2 ^ 52, (biased : ℤ) - 1075, true⟩ v)
    (hlt : v < 2 ^ 52 * (2 : ℚ) ^ ((biased : ℤ) - 1075)) : Places v (biased * 2 ^ 52) := by
  have hlow := h.1
  have hunit : (0 : ℚ) < (2 : ℚ) ^ ((biased : ℤ) - 1076) := by positivity
  have hstep : (2 : ℚ) ^ ((biased : ℤ) - 1075) = 2 * (2 : ℚ) ^ ((biased : ℤ) - 1076) := by
    rw [← zpow_one_add₀ (by norm_num)]
    congr 1
    ring
  simp only [Binary.low, if_true, hstep] at hlow
  rw [hstep] at hlt
  norm_num at hlow hlt
  refine ⟨(biased : ℤ) - 1076, 2 ^ 53, ⟨by omega, ?_, Or.inr ?_⟩, ?_, ?_, by omega⟩
  · linarith
  · linarith
  · rw [rounds_div_iff hunit]
    refine ⟨?_, ?_, fun h => absurd h (by decide)⟩ <;> push_cast <;> linarith
  · linarith

theorem places_of_normal {biased fraction : Nat} (hbiased : 1 ≤ biased)
    (hfraction : fraction < 2 ^ 52) {boundary : Bool}
    (h : Binary.Takes ⟨2 ^ 52 + fraction, (biased : ℤ) - 1075, boundary⟩ v)
    (hbase : 1 < biased → fraction = 0 → 2 ^ 52 * (2 : ℚ) ^ ((biased : ℤ) - 1075) ≤ v) :
    Places v (biased * 2 ^ 52 + fraction) := by
  obtain ⟨hlow, hhigh, hodd⟩ := h
  simp only [Binary.low, Binary.high] at hlow hhigh hodd
  push_cast at hlow hhigh hodd
  have hf0 : (0 : ℚ) ≤ fraction := by positivity
  have hf' : (fraction : ℚ) + 1 ≤ 2 ^ 52 := by exact_mod_cast hfraction
  have hunit : (0 : ℚ) < (2 : ℚ) ^ ((biased : ℤ) - 1075) := by positivity
  set unit := (2 : ℚ) ^ ((biased : ℤ) - 1075)
  have hgap : (1 / 4 : ℚ) * unit ≤ 1 / 2 * unit := by linarith
  have hlow' : (2 ^ 52 + fraction - 1 / 2) * unit ≤ v := by
    split at hlow <;> linarith
  have hodd' : (2 ^ 52 + fraction) % 2 = 1 →
      (2 ^ 52 + fraction - 1 / 2) * unit < v ∧ v < (2 ^ 52 + fraction + 1 / 2) * unit := by
    intro hn
    obtain ⟨hlow, hhigh⟩ := hodd hn
    split at hlow <;> exact ⟨by linarith, hhigh⟩
  -- Below a power of two the unit is half as large, so there `v` must not be less than the power.
  have hfull : (biased : ℤ) - 1075 = -1074 ∨ 2 ^ 52 * unit ≤ v := by
    rcases Nat.eq_zero_or_pos fraction with hzero | hone
    · by_cases hfirst : biased = 1
      · exact Or.inl (by omega)
      · exact Or.inr (hbase (by omega) hzero)
    · have hone' : (1 : ℚ) ≤ fraction := by exact_mod_cast hone
      exact Or.inr (by nlinarith)
  refine ⟨(biased : ℤ) - 1075, 2 ^ 52 + fraction, ⟨by omega, ?_, hfull⟩, ?_, ?_, by omega⟩
  · nlinarith
  · rw [rounds_div_iff hunit]
    push_cast
    exact ⟨hlow', hhigh, hodd'⟩
  · nlinarith

end Takes

/-- Every number that rounds to a finite double is brought to its bits. -/
theorem quotientBits_eq {numerator denominator bits : Nat} (hd : 0 < denominator)
    (hpos : 0 < bits) (hfinite : bits < infinityBits)
    (h : (Binary.ofBits (UInt64.ofNat bits)).Takes (numerator / denominator)) :
    quotientBits numerator denominator = bits := by
  apply quotientBits_of_places hd hfinite
  rcases ofBits_cases hfinite with ⟨hsmall, hbinary⟩ | ⟨biased, fraction, hb, hf, rfl, hbinary⟩
  · exact places_of_subnormal hpos hsmall (hbinary ▸ h)
  · rw [hbinary] at h
    by_cases hbelow : (1 < biased ∧ fraction = 0) ∧
        (numerator : ℚ) / denominator < 2 ^ 52 * (2 : ℚ) ^ ((biased : ℤ) - 1075)
    · obtain ⟨⟨hbiased, rfl⟩, hlt⟩ := hbelow
      have hboundary : (decide ((0 : ℕ) = 0) && decide (biased > 1)) = true := by
        simpa using hbiased
      rw [hboundary, Nat.add_zero] at h
      rw [Nat.add_zero]
      exact places_below_power hbiased h hlt
    · exact places_of_normal hb hf h fun hbiased hzero =>
        not_lt.1 fun hlt => hbelow ⟨⟨hbiased, hzero⟩, hlt⟩

end ObjectNavigation.Decimal
