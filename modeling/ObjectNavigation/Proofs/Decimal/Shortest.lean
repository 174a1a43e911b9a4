import Mathlib.Tactic.LinearCombination
import ObjectNavigation.Proofs.Decimal.Rounding

/-!
The shortest decimal of a double reads back. The search stops at a decimal of the rounding interval,
and it stops: seventeen digits make a grid so fine that one of the two points next to the number
lies in its interval.
-/

namespace ObjectNavigation.Decimal

theorem two_pow_lt_ten_pow {m n : Nat} (h : Nat.pow 2 m < Nat.pow 10 n) :
    (2 : ℚ) ^ m < (10 : ℚ) ^ n := by
  exact_mod_cast h

theorem lt_pow_digitCount (n : Nat) : n < 10 ^ digitCount n :=
  (Nat.length_toDigits_le_iff (by decide) Nat.length_toDigits_pos).1 (Nat.le_refl _)

theorem pow_digitCount_le {n : Nat} (hpos : 0 < n) : 10 ^ (digitCount n - 1) ≤ n := by
  rcases Nat.eq_zero_or_pos (digitCount n - 1) with hzero | hlong
  · rw [hzero]
    exact hpos
  · refine Nat.le_of_not_lt fun hlt => ?_
    have hle := (Nat.length_toDigits_le_iff (by decide) hlong).2 hlt
    have hcount : 0 < digitCount n := Nat.length_toDigits_pos
    exact absurd hle (Nat.not_le.2 (Nat.sub_lt hcount Nat.one_pos))

/-! ### Finite positive doubles -/

namespace Binary

/-- The magnitudes of the finite doubles other than zero. -/
structure Finite (x : Binary) : Prop where
  pos : 0 < x.mantissa
  lt : x.mantissa < 2 ^ 53
  boundary : x.boundary = true → x.mantissa = 2 ^ 52
  least : -1074 ≤ x.exponent
  greatest : x.exponent ≤ 971

theorem finite_ofBits {bits : Nat} (hpos : 0 < bits) (hfinite : bits < infinityBits) :
    (Binary.ofBits (UInt64.ofNat bits)).Finite := by
  have hinf : infinityBits = 2047 * 2 ^ 52 := rfl
  rcases ofBits_cases hfinite with ⟨hsmall, h⟩ | ⟨biased, fraction, hb, hf, rfl, h⟩
  · rw [h]
    exact ⟨hpos, by dsimp only; omega, nofun, by simp, by simp⟩
  · rw [h]
    refine ⟨by simp, by dsimp only; omega, fun hboundary => ?_, by dsimp only; omega,
      by dsimp only; omega⟩
    simp only [Bool.and_eq_true, decide_eq_true_eq] at hboundary
    simp [hboundary.1]

namespace Finite
variable {x : Binary} (h : x.Finite)
include h

theorem one_le : (1 : ℚ) ≤ x.mantissa := by
  exact_mod_cast h.pos

theorem value_pos : 0 < x.value := by
  have hone := h.one_le
  have hunit : (0 : ℚ) < (2 : ℚ) ^ x.exponent := by positivity
  exact mul_pos (by linarith) hunit

theorem takes_bounds {v : ℚ} (hv : x.Takes v) :
    (2 : ℚ) ^ (-1075 : ℤ) ≤ v ∧ v < (2 : ℚ) ^ (1024 : ℤ) := by
  obtain ⟨hlow, hhigh, _⟩ := hv
  have hone := h.one_le
  have hunit : (0 : ℚ) < (2 : ℚ) ^ x.exponent := by positivity
  have hleast : (2 : ℚ) ^ (-1074 : ℤ) ≤ (2 : ℚ) ^ x.exponent :=
    zpow_le_zpow_right₀ (by norm_num) h.least
  have hgreatest : (2 : ℚ) ^ x.exponent ≤ (2 : ℚ) ^ (971 : ℤ) :=
    zpow_le_zpow_right₀ (by norm_num) h.greatest
  have hlt : (x.mantissa : ℚ) + 1 ≤ 2 ^ 53 := by exact_mod_cast h.lt
  constructor
  · have hhalf : (2 : ℚ) ^ (-1074 : ℤ) = (2 : ℚ) ^ (-1075 : ℤ) * 2 :=
      zpow_add_one₀ two_ne_zero (-1075)
    refine le_trans ?_ hlow
    rw [low]
    split <;> nlinarith
  · have htop : (2 : ℚ) ^ (1024 : ℤ) = (2 : ℚ) ^ (971 : ℤ) * 2 ^ 53 := by
      rw [← zpow_natCast 2 53, ← zpow_add₀ two_ne_zero]
      rfl
    have hgrow : (2 : ℚ) ^ x.exponent * 2 ^ 53 ≤ (2 : ℚ) ^ (971 : ℤ) * 2 ^ 53 :=
      mul_le_mul_of_nonneg_right hgreatest (by positivity)
    rw [htop]
    refine lt_of_le_of_lt hhigh (lt_of_lt_of_le ?_ hgrow)
    rw [high]
    nlinarith

/-- What is nearer than any two neighbours of the double can be. -/
theorem takes_of_near {v : ℚ} (hlow : x.value - x.value / 2 ^ 54 < v)
    (hhigh : v < x.value + x.value / 2 ^ 54) : x.Takes v := by
  have hunit : (0 : ℚ) < (2 : ℚ) ^ x.exponent := by positivity
  have hlt : (x.mantissa : ℚ) < 2 ^ 53 := by exact_mod_cast h.lt
  have hvalue : x.value / 2 ^ 54 ≤ 1 / 2 * (2 : ℚ) ^ x.exponent := by
    rw [value]
    nlinarith
  have habove : v < x.high := by
    rw [high, add_mul]
    exact lt_of_lt_of_le hhigh (add_le_add_right hvalue _)
  have hbelow : x.low < v := by
    refine lt_of_le_of_lt ?_ hlow
    rw [low, sub_mul]
    refine sub_le_sub_left ?_ _
    by_cases hboundary : x.boundary = true
    · rw [if_pos hboundary, value, h.boundary hboundary]
      push_cast
      linarith
    · rw [if_neg hboundary]
      exact hvalue
  exact ⟨hbelow.le, habove.le, fun _ => ⟨hbelow, habove⟩⟩

end Finite
end Binary

theorem Numeral.nearestBits_eq {d : Numeral} {bits : Nat} (hpos : 0 < bits)
    (hfinite : bits < infinityBits) (h : (Binary.ofBits (UInt64.ofNat bits)).Takes d.value) :
    d.nearestBits = bits := by
  obtain ⟨hlow, hhigh⟩ := (Binary.finite_ofBits hpos hfinite).takes_bounds h
  have hscale : (0 : ℚ) < (10 : ℚ) ^ d.exponent := by positivity
  have hdigits : 0 < d.digits := by
    rcases Nat.eq_zero_or_pos d.digits with hzero | hd
    · rw [Numeral.value, hzero, Nat.cast_zero, zero_mul] at hlow
      exact absurd hlow (not_le.2 (by positivity))
    · exact hd
  have hcount : 0 < digitCount d.digits := Nat.length_toDigits_pos
  have hlarge : (10 : ℚ) ^ ((digitCount d.digits : ℤ) + d.exponent - 1) ≤ d.value := by
    have hle : ((10 : ℚ) ^ (digitCount d.digits - 1)) ≤ d.digits := by
      exact_mod_cast pow_digitCount_le hdigits
    have hexp : (digitCount d.digits : ℤ) + d.exponent - 1 =
        ((digitCount d.digits - 1 : ℕ) : ℤ) + d.exponent := by omega
    rw [hexp, zpow_add₀ (by norm_num), zpow_natCast]
    exact mul_le_mul_of_nonneg_right hle hscale.le
  have hsmall : d.value < (10 : ℚ) ^ ((digitCount d.digits : ℤ) + d.exponent) := by
    have hlt : (d.digits : ℚ) < (10 : ℚ) ^ digitCount d.digits := by
      exact_mod_cast lt_pow_digitCount d.digits
    rw [zpow_add₀ (by norm_num), zpow_natCast]
    exact mul_lt_mul_of_pos_right hlt hscale
  have hbelow : ¬ (digitCount d.digits : ℤ) + d.exponent < -330 := by
    intro hlt
    have hpow : (10 : ℚ) ^ ((digitCount d.digits : ℤ) + d.exponent) ≤ (10 : ℚ) ^ (-331 : ℤ) :=
      zpow_le_zpow_right₀ (by norm_num) (by omega)
    have hgap : (10 : ℚ) ^ (-331 : ℤ) < (2 : ℚ) ^ (-1075 : ℤ) := by
      rw [zpow_neg, zpow_neg, zpow_ofNat, zpow_ofNat]
      exact inv_strictAnti₀ (pow_pos two_pos 1075) (two_pow_lt_ten_pow (by decide +kernel))
    linarith
  have habove : ¬ 310 < (digitCount d.digits : ℤ) + d.exponent := by
    intro hlt
    have hpow : (10 : ℚ) ^ (310 : ℤ) ≤ (10 : ℚ) ^ ((digitCount d.digits : ℤ) + d.exponent - 1) :=
      zpow_le_zpow_right₀ (by norm_num) (by omega)
    have hgap : (2 : ℚ) ^ (1024 : ℤ) < (10 : ℚ) ^ (310 : ℤ) := by
      rw [zpow_ofNat, zpow_ofNat]
      exact two_pow_lt_ten_pow (by decide +kernel)
    exact lt_irrefl _ (((hpow.trans hlarge).trans_lt hhigh).trans hgap)
  rw [Numeral.nearestBits, if_neg (not_or.2 ⟨by omega, hbelow⟩), if_neg habove]
  refine quotientBits_eq (Nat.pow_pos (by decide)) hpos hfinite ?_
  rw [Numeral.value, zpow_eq_div, mul_div_assoc'] at h
  rw [Nat.pow_eq, Nat.pow_eq]
  push_cast
  exact h

/-! ### The search -/

theorem stripZeros_value (fuel : Nat) (d : Numeral) : (stripZeros fuel d).value = d.value := by
  induction fuel generalizing d with
  | zero => rfl
  | succ fuel ih =>
    rw [stripZeros]
    split
    next hzero =>
      have hdigits : (d.digits : ℚ) = ((d.digits / 10 : ℕ) : ℚ) * 10 := by
        exact_mod_cast (Nat.div_mul_cancel (Nat.dvd_of_mod_eq_zero hzero)).symm
      rw [ih, Numeral.value, Numeral.value, hdigits, zpow_add_one₀ (by norm_num)]
      ring
    next => rfl

namespace Interval

/-- Whether this is the rounding interval of a number in units of `unit`. -/
structure Of (i : Interval) (x : Binary) (unit : ℚ) : Prop where
  pos : 0 < i.denominator
  low : (i.low : ℚ) * unit = x.low * i.denominator
  value : (i.value : ℚ) * unit = x.value * i.denominator
  high : (i.high : ℚ) * unit = x.high * i.denominator
  closed : i.closed = decide (x.mantissa % 2 = 0)

variable {i : Interval} {x : Binary} {unit : ℚ}

theorem of_interval (h : x.Finite) : x.interval.Of x 1 := by
  have hscale : (2 : ℚ) ^ (x.exponent - 2).toNat * 4 =
      (2 : ℚ) ^ x.exponent * (2 : ℚ) ^ (-(x.exponent - 2)).toNat := by
    have hsplit := zpow_eq_div 2 (x.exponent - 2)
    rw [eq_div_iff (by positivity)] at hsplit
    rw [← hsplit, zpow_sub₀ two_ne_zero]
    norm_num
    ring
  have hpos := h.pos
  refine ⟨Nat.pow_pos (by decide), ?_, ?_, ?_, rfl⟩
  · rw [Binary.interval, Binary.low]
    dsimp only [Nat.pow_eq]
    have hfits : (if x.boundary = true then 1 else 2) ≤ 4 * x.mantissa := by split <;> omega
    rw [Nat.cast_mul, Nat.cast_sub hfits]
    push_cast
    split
    · linear_combination (x.mantissa - 1 / 4) * hscale
    · linear_combination (x.mantissa - 1 / 2) * hscale
  · rw [Binary.interval, Binary.value]
    dsimp only [Nat.pow_eq]
    push_cast
    linear_combination x.mantissa * hscale
  · rw [Binary.interval, Binary.high]
    dsimp only [Nat.pow_eq]
    push_cast
    linear_combination (x.mantissa + 1 / 2) * hscale

theorem Of.scale (h : i.Of x unit) (z : ℤ) : (i.scale z).Of x (unit * (10 : ℚ) ^ z) := by
  have hsplit := zpow_eq_div 10 z
  rw [eq_div_iff (by positivity)] at hsplit
  refine ⟨Nat.mul_pos h.pos (Nat.pow_pos (by decide)), ?_, ?_, ?_, h.closed⟩
  all_goals
    rw [Interval.scale]
    dsimp only [Nat.pow_eq]
    push_cast
  · linear_combination (10 : ℚ) ^ z * (10 : ℚ) ^ (-z).toNat * h.low + x.low * i.denominator * hsplit
  · linear_combination
      (10 : ℚ) ^ z * (10 : ℚ) ^ (-z).toNat * h.value + x.value * i.denominator * hsplit
  · linear_combination
      (10 : ℚ) ^ z * (10 : ℚ) ^ (-z).toNat * h.high + x.high * i.denominator * hsplit

theorem Of.holds_iff (h : i.Of x unit) (hunit : 0 < unit) (n : Nat) :
    i.holds n = true ↔ x.Takes (n * unit) := by
  have hd : (0 : ℚ) < i.denominator := by exact_mod_cast h.pos
  -- a comparison of the numerators is one of the numbers
  have hle : ∀ {a b : ℕ} {u v : ℚ}, (a : ℚ) * unit = u * i.denominator →
      (b : ℚ) * unit = v * i.denominator → (a ≤ b ↔ u ≤ v) := by
    intro a b u v ha hb
    rw [← mul_le_mul_iff_left₀ hd, ← ha, ← hb, mul_le_mul_iff_left₀ hunit, Nat.cast_le]
  have hpoint : ((n * i.denominator : ℕ) : ℚ) * unit = n * unit * i.denominator := by
    push_cast
    ring
  have hlow := hle h.low hpoint
  have hhigh := hle hpoint h.high
  have hlow' := hle hpoint h.low
  have hhigh' := hle h.high hpoint
  rw [holds, h.closed, Binary.Takes]
  by_cases heven : x.mantissa % 2 = 0
  · have hodd : x.mantissa % 2 ≠ 1 := by omega
    simp [heven, hlow, hhigh]
  · have hodd : x.mantissa % 2 = 1 := by omega
    have hlt : i.low < n * i.denominator ↔ x.low < n * unit := by
      rw [← Nat.not_le, hlow', not_le]
    have hlt' : n * i.denominator < i.high ↔ n * unit < x.high := by
      rw [← Nat.not_le, hhigh', not_le]
    simp only [hodd, Nat.one_ne_zero, decide_false, Bool.false_eq_true, if_false,
      Bool.and_eq_true, decide_eq_true_eq, hlt, hlt', forall_const]
    exact ⟨fun h => ⟨h.1.le, h.2.le, h⟩, fun h => h.2.2⟩

theorem holds_of_nearest? {n : Nat} (h : i.nearest? = some n) : i.holds n = true := by
  rw [nearest?] at h
  split at h
  · cases h
  · cases h
    assumption
  · cases h
    assumption
  · split at h <;> cases h <;> assumption

theorem nearest?_ne_none (h : i.holds (i.value / i.denominator) = true ∨
    i.holds (i.value / i.denominator + 1) = true) : i.nearest? ≠ none := by
  rw [nearest?]
  split
  next hbelow habove =>
    rcases h with h | h
    · exact absurd (h.symm.trans hbelow) (by decide)
    · exact absurd (h.symm.trans habove) (by decide)
  · exact nofun
  · exact nofun
  · split <;> exact nofun

theorem Of.nearest?_ne_none (h : i.Of x unit) (hx : x.Finite) (hunit : 0 < unit)
    (hfine : 10 ^ 16 * unit ≤ x.value) : i.nearest? ≠ none := by
  have hd : (0 : ℚ) < i.denominator := by exact_mod_cast h.pos
  set below := i.value / i.denominator with hbelow
  have hbetween : ((below : ℕ) : ℚ) * unit ≤ x.value ∧ x.value < ((below : ℚ) + 1) * unit := by
    have hle : below * i.denominator ≤ i.value := Nat.div_mul_le_self _ _
    have hlt : i.value < (below + 1) * i.denominator := by
      rw [Nat.mul_comm]
      exact Nat.lt_mul_div_succ _ h.pos
    have hle' : ((below : ℚ) * i.denominator) * unit ≤ x.value * i.denominator := by
      rw [← h.value]
      exact mul_le_mul_of_nonneg_right (by exact_mod_cast hle) hunit.le
    have hlt' : x.value * i.denominator < (((below : ℚ) + 1) * i.denominator) * unit := by
      rw [← h.value]
      exact mul_lt_mul_of_pos_right (by exact_mod_cast hlt) hunit
    constructor
    · refine le_of_mul_le_mul_right ?_ hd
      linarith
    · refine lt_of_mul_lt_mul_right ?_ hd.le
      linarith
  have hvalue := hx.value_pos
  refine Interval.nearest?_ne_none ?_
  rw [h.holds_iff hunit, h.holds_iff hunit]
  push_cast
  by_cases hnear : x.value - below * unit ≤ unit / 2
  · exact Or.inl (hx.takes_of_near (by linarith) (by linarith))
  · exact Or.inr (hx.takes_of_near (by linarith) (by linarith))

theorem Of.leading_le (h : i.Of x 1) (hx : x.Finite) : (10 : ℚ) ^ i.leading ≤ x.value := by
  have hd : (0 : ℚ) < i.denominator := by exact_mod_cast h.pos
  have hvalue : (i.value : ℚ) = x.value * i.denominator := by rw [← h.value, mul_one]
  have hpos : 0 < i.value := by
    have : (0 : ℚ) < i.value := by
      rw [hvalue]
      exact mul_pos hx.value_pos hd
    exact_mod_cast this
  have hplaces : ∀ places : ℕ, i.denominator ≤ i.value * 10 ^ places →
      (10 : ℚ) ^ (-(places : ℤ)) ≤ x.value := by
    intro places hle
    have hle' : (i.denominator : ℚ) ≤ i.value * 10 ^ places := by exact_mod_cast hle
    rw [hvalue, mul_right_comm] at hle'
    rw [zpow_neg, zpow_natCast, inv_le_iff_one_le_mul₀ (by positivity)]
    exact le_of_mul_le_mul_right (by rwa [one_mul]) hd
  rw [leading]
  split
  next hle =>
    have hquotient : 0 < i.value / i.denominator := Nat.div_pos hle h.pos
    have hcount : 0 < digitCount (i.value / i.denominator) := Nat.length_toDigits_pos
    have hpow := Nat.mul_le_mul_right i.denominator (pow_digitCount_le hquotient)
    have hpow' := hpow.trans (Nat.div_mul_le_self _ _)
    have hpow'' : (10 : ℚ) ^ (digitCount (i.value / i.denominator) - 1) * i.denominator ≤
        x.value * i.denominator := by
      rw [← hvalue]
      exact_mod_cast hpow'
    rw [← Nat.cast_pred hcount, zpow_natCast]
    exact le_of_mul_le_mul_right hpow'' hd
  next hlt =>
    have hcount : 0 < digitCount (i.denominator / i.value) := Nat.length_toDigits_pos
    have hlast : i.denominator ≤ i.value * 10 ^ digitCount (i.denominator / i.value) := by
      have := (Nat.div_lt_iff_lt_mul hpos).1 (lt_pow_digitCount (i.denominator / i.value))
      rw [Nat.mul_comm]
      exact this.le
    dsimp only
    split
    next hle =>
      have hexp : 1 - (digitCount (i.denominator / i.value) : ℤ) =
          -((digitCount (i.denominator / i.value) - 1 : ℕ) : ℤ) := by omega
      rw [hexp]
      exact hplaces _ hle
    next => exact hplaces _ hlast

theorem takes_of_search (h : i.Of x 1) {leading : ℤ} {tries count : Nat} {d : Numeral}
    (hsearch : i.search leading tries count = some d) : x.Takes d.value := by
  induction tries generalizing count with
  | zero => cases hsearch
  | succ tries ih =>
    rw [search] at hsearch
    split at hsearch
    next digits hnearest =>
      cases hsearch
      have hscale := h.scale (leading - count + 1)
      rw [one_mul] at hscale
      rw [stripZeros_value]
      exact (hscale.holds_iff (by positivity) digits).1 (holds_of_nearest? hnearest)
    next => exact ih hsearch

theorem search_ne_none (h : i.Of x 1) (hx : x.Finite) {tries count : Nat} (hcount : count ≤ 17)
    (htries : 17 < count + tries) : i.search i.leading tries count ≠ none := by
  induction tries generalizing count with
  | zero => omega
  | succ tries ih =>
    rw [search]
    split
    next => exact nofun
    next hnone =>
      refine ih (Nat.succ_le_of_lt (Nat.lt_of_le_of_ne hcount ?_)) (by omega)
      rintro rfl
      have hscale := h.scale (i.leading - (17 : ℕ) + 1)
      rw [one_mul] at hscale
      refine hscale.nearest?_ne_none hx (by positivity) ?_ hnone
      refine le_trans (le_of_eq ?_) (h.leading_le hx)
      rw [← zpow_natCast, ← zpow_add₀ (by norm_num)]
      congr 1
      push_cast
      ring

end Interval

theorem takes_shortest {x : Binary} (h : x.Finite) : x.Takes (shortest x).value := by
  have hof := Interval.of_interval h
  have hfound : x.interval.search x.interval.leading 17 1 ≠ none :=
    Interval.search_ne_none hof h (by decide) (by decide)
  obtain ⟨d, hd⟩ := Option.ne_none_iff_exists'.1 hfound
  rw [shortest, hd]
  exact Interval.takes_of_search hof hd

/-- Every finite positive double is the one nearest to its shortest decimal, and to whatever has
the value of that. -/
theorem nearestBits_shortest {bits : Nat} (hpos : 0 < bits) (hfinite : bits < infinityBits)
    {d : Numeral} (h : d.value = (shortest (Binary.ofBits (UInt64.ofNat bits))).value) :
    d.nearestBits = bits := by
  refine Numeral.nearestBits_eq hpos hfinite ?_
  rw [h]
  exact takes_shortest (Binary.finite_ofBits hpos hfinite)

end ObjectNavigation.Decimal
