import Mathlib
import ObjectNavigation.Decimal.Notation
import ObjectNavigation.Proofs.Decimal.Shortest
import ObjectNavigation.Proofs.Source.Numeral

/-!
Floats read back. However a finite float is written, with all its places or with an exponent, the
literal stands for a decimal that no other float is nearer to.
-/

namespace ObjectNavigation.Decimal

open Source

open Float.Model Float.Model.UnpackedFloat in
theorem toBits_ofBits {bits : Nat} (h : bits < infinityBits) :
    (Float.ofBits (UInt64.ofNat bits)).toBits = UInt64.ofNat bits := by
  have hsmall : bits < 2047 * 2 ^ 52 := h
  have hfinite : @unpackExponent Format.binary64 (UInt64.ofNat bits).toBitVec ≠ -1#11 := by
    intro heq
    have hnat := congrArg BitVec.toNat heq
    change ((UInt64.ofNat bits).toBitVec.toNat >>> 52) % 2 ^ 11 = 2047 at hnat
    rw [UInt64.toNat_toBitVec, UInt64.toNat_ofNat', Nat.shiftRight_eq_div_pow] at hnat
    omega
  have hnumber : @isNaNBits Format.binary64 (UInt64.ofNat bits).toBitVec = false :=
    decide_eq_false fun hnan => hfinite hnan.1
  have hpack := @pack_unpack Format.binary64 (UInt64.ofNat bits).toBitVec (by decide)
  rw [hnumber] at hpack
  exact congrArg UInt64.ofBitVec hpack

/-- Whether a text is a literal with a point or an exponent that has a value. -/
def Writes (cs : List Char) (v : ℚ) : Prop :=
  ∃ whole places exponent, Digits whole ∧ whole ≠ [] ∧ Digits places ∧
    (places ≠ [] ∨ exponent ≠ none) ∧ cs = whole ++ fractionText places exponent ∧
    (fractionNumeral whole places exponent).value = v

theorem toList_pushn (s : String) (c : Char) (n : Nat) :
    (s.pushn c n).toList = s.toList ++ List.replicate n c := by
  rw [String.pushn_eq_repeat_push]
  induction n with
  | zero => exact (List.append_nil _).symm
  | succ n ih =>
    change ((n.repeat (fun s => s.push c) s).push c).toList = _
    rw [String.toList_push, ih, List.append_assoc, List.replicate_succ']

/-- Parts whose digits are those of a numeral, with as many places as its exponent says. -/
theorem value_fractionNumeral {d : Numeral} {whole places : List Char} {exponent : Option ℤ}
    (hdigits : Nat.ofDigitChars 10 (whole ++ places) 0 = d.digits)
    (hexponent : exponent.getD 0 - places.length = d.exponent) :
    (fractionNumeral whole places exponent).value = d.value := by
  rw [fractionNumeral, hdigits, hexponent]

/-! ### Positional and scientific texts -/

section Digits
variable (d : Numeral)

theorem length_digits : ((toString d.digits).length : ℤ) = (Nat.toDigits 10 d.digits).length := by
  rw [← String.length_toList, toList_digits]

theorem writes_whole {n : ℕ} (h : d.exponent = n) :
    Writes (toString d.digits ++ "".pushn '0' n ++ ".0").toList d.value := by
  refine ⟨Nat.toDigits 10 d.digits ++ List.replicate n '0', ['0'], none,
    (digits_toDigits d.digits).append (digits_replicate _), by simp, digits_replicate 1,
    Or.inl nofun, ?_, ?_⟩
  · rw [String.toList_append, String.toList_append, toList_pushn, toList_digits]
    simp [fractionText, exponentText]
  · rw [fractionNumeral, Numeral.value, Numeral.value, Nat.ofDigitChars_append,
      Nat.ofDigitChars_append, Nat.ofDigitChars_ten_toDigits, Nat.ofDigitChars_replicate_zero, h]
    change ((10 * (10 ^ n * d.digits) + 0 : ℕ) : ℚ) * (10 : ℚ) ^ (-1 : ℤ) = _
    push_cast
    rw [zpow_natCast, zpow_neg_one]
    ring

theorem writes_split {n : ℕ} (hpos : 0 < n) (hlt : n < (Nat.toDigits 10 d.digits).length)
    (h : d.exponent = n - (Nat.toDigits 10 d.digits).length) :
    Writes (((toString d.digits).take n).toString ++ "." ++
      ((toString d.digits).drop n).toString).toList d.value := by
  have hdigits := digits_toDigits d.digits
  have hplaces : (Nat.toDigits 10 d.digits).drop n ≠ [] := by
    rw [Ne, List.drop_eq_nil_iff]
    omega
  have htake : (Nat.toDigits 10 d.digits).take n ≠ [] := by
    rw [Ne, List.take_eq_nil_iff]
    exact not_or.2 ⟨by omega, Nat.toDigits_ne_nil⟩
  refine ⟨(Nat.toDigits 10 d.digits).take n, (Nat.toDigits 10 d.digits).drop n, none,
    hdigits.sublist (List.take_sublist _ _), htake, hdigits.sublist (List.drop_sublist _ _),
    Or.inl hplaces, ?_, value_fractionNumeral ?_ ?_⟩
  · rw [String.toList_append, String.toList_append, fractionText, if_neg hplaces]
    simp [exponentText]
  · rw [List.take_append_drop, Nat.ofDigitChars_ten_toDigits]
  · rw [List.length_drop, Option.getD_none]
    omega

theorem writes_small {n : ℕ} (h : d.exponent = -n - (Nat.toDigits 10 d.digits).length) :
    Writes ("0." ++ "".pushn '0' n ++ toString d.digits).toList d.value := by
  refine ⟨['0'], List.replicate n '0' ++ Nat.toDigits 10 d.digits, none, digits_replicate 1,
    nofun, (digits_replicate n).append (digits_toDigits d.digits),
    Or.inl (by simp [Nat.toDigits_ne_nil]), ?_, value_fractionNumeral ?_ ?_⟩
  · rw [String.toList_append, String.toList_append, toList_pushn, toList_digits, fractionText,
      if_neg (by simp [Nat.toDigits_ne_nil])]
    simp [exponentText]
  · change Nat.ofDigitChars 10 (List.replicate n '0' ++ Nat.toDigits 10 d.digits) 0 = _
    rw [Nat.ofDigitChars_append, Nat.ofDigitChars_replicate_zero, Nat.mul_zero,
      Nat.ofDigitChars_ten_toDigits]
  · rw [List.length_append, List.length_replicate, Option.getD_none]
    omega

theorem writes_positional :
    Writes (positional (toString d.digits) d.exponent).toList d.value := by
  have hlength := length_digits d
  rw [positional, hlength]
  split
  next hpos =>
    obtain ⟨n, hn⟩ := Int.eq_ofNat_of_zero_le hpos
    rw [hn, Int.toNat_natCast]
    exact writes_whole d hn
  next hneg =>
    split
    next hwhole =>
      obtain ⟨n, hn⟩ := Int.eq_ofNat_of_zero_le hwhole.le
      rw [hn, Int.toNat_natCast]
      exact writes_split d (by omega) (by omega) (by omega)
    next hsmall =>
      obtain ⟨n, hn⟩ := Int.eq_ofNat_of_zero_le (Int.neg_nonneg.2 (not_lt.1 hsmall))
      rw [hn, Int.toNat_natCast]
      exact writes_small d (by omega)

theorem writes_scientific :
    Writes (scientific (toString d.digits) ((toString d.digits).length + d.exponent - 1)).toList
      d.value := by
  have hdigits := digits_toDigits d.digits
  have hlength := length_digits d
  have hpos : 0 < (Nat.toDigits 10 d.digits).length := Nat.length_toDigits_pos
  have htake : (Nat.toDigits 10 d.digits).take 1 ≠ [] := by
    rw [Ne, List.take_eq_nil_iff]
    exact not_or.2 ⟨by decide, Nat.toDigits_ne_nil⟩
  refine ⟨(Nat.toDigits 10 d.digits).take 1, (Nat.toDigits 10 d.digits).drop 1,
    some ((toString d.digits).length + d.exponent - 1), hdigits.sublist (List.take_sublist _ _),
    htake, hdigits.sublist (List.drop_sublist _ _), Or.inr nofun, ?_, value_fractionNumeral ?_ ?_⟩
  · have hempty : ((toString d.digits).drop 1).toString.isEmpty = true ↔
        (Nat.toDigits 10 d.digits).drop 1 = [] := by
      rw [String.isEmpty_iff, ← String.toList_inj]
      simp
    rw [scientific, fractionText]
    by_cases h : (Nat.toDigits 10 d.digits).drop 1 = []
    · rw [if_pos h, if_pos (hempty.2 h)]
      simp [exponentText]
    · rw [if_neg h, if_neg (mt hempty.1 h)]
      simp [exponentText]
  · rw [List.take_append_drop, Nat.ofDigitChars_ten_toDigits]
  · rw [List.length_drop, Option.getD_some, hlength]
    omega

end Digits

theorem writes_magnitude (d : Numeral) : Writes (style.magnitude d).toList d.value := by
  rw [Style.magnitude]
  split
  · exact writes_positional d
  · exact writes_scientific d

theorem writes_shortest {bits : Nat} (h : bits < infinityBits) :
    ∃ v, Writes (floatText (Float.ofBits (UInt64.ofNat bits))).toList v ∧
      ∀ d : Numeral, d.value = v → d.nearestBits = bits := by
  have hinf : infinityBits = 2047 * 2 ^ 52 := rfl
  have hbits : (UInt64.ofNat bits).toNat = bits := by
    rw [UInt64.toNat_ofNat']
    exact Nat.mod_eq_of_lt (by omega)
  have hbiased : bits / Nat.pow 2 52 % Nat.pow 2 11 ≠ 2047 := by
    simp only [Nat.pow_eq]
    omega
  have hpositive : bits / Nat.pow 2 63 ≠ 1 := by
    simp only [Nat.pow_eq]
    omega
  rw [floatText, toBits_ofBits h, Style.text, hbits, if_neg (fun h => hbiased h.1),
    if_neg hpositive, if_neg hbiased]
  rcases Nat.eq_zero_or_pos bits with rfl | hpos
  · refine ⟨0, ⟨['0'], ['0'], none, digits_replicate 1, nofun, digits_replicate 1, Or.inl nofun,
      rfl, by simp [fractionNumeral, Numeral.value, Nat.ofDigitChars_cons]⟩, fun d hd => ?_⟩
    have hdigits : d.digits = 0 := by
      have hscale : (10 : ℚ) ^ d.exponent ≠ 0 := by positivity
      exact_mod_cast (mul_eq_zero.1 hd).resolve_right hscale
    rw [Numeral.nearestBits, if_pos (Or.inl hdigits)]
  · have hsome : ¬ (bits / Nat.pow 2 52 % Nat.pow 2 11 = 0 ∧ bits % Nat.pow 2 52 = 0) := by
      simp only [Nat.pow_eq]
      omega
    rw [if_neg hsome, String.toList_append]
    exact ⟨_, writes_magnitude _, fun d hd => nearestBits_shortest hpos h hd⟩

/-- The text of a finite float that is not negative is the literal of a decimal that it is the
float nearest to, whatever follows the literal. -/
theorem floatText_reads {bits : Nat} (h : bits < infinityBits) :
    ∃ (d : Numeral) (c : Char) (rest : List Char), c.isDigit = true ∧
      (floatText (Float.ofBits (UInt64.ofNat bits))).toList = c :: rest ∧
      (∀ tail, Ends tail → afterNumber? (c :: rest ++ tail) = some tail) ∧
      Literal.ofNumber (c :: rest) = .float d.digits d.exponent ∧
      d.nearest = Float.ofBits (UInt64.ofNat bits) := by
  obtain ⟨v, ⟨whole, places, exponent, hwhole, hsome, hplaces, hlong, htext, hvalue⟩, hnearest⟩ :=
    writes_shortest h
  obtain ⟨c, ds, rfl⟩ := List.exists_cons_of_ne_nil hsome
  refine ⟨fractionNumeral (c :: ds) places exponent, c, ds ++ fractionText places exponent,
    hwhole c List.mem_cons_self, htext, fun tail htail => ?_, ?_, ?_⟩
  · exact afterNumber?_fraction hwhole hsome hplaces hlong htail
  · exact ofNumber_fraction hwhole hsome hplaces hlong
  · rw [Numeral.nearest, hnearest _ hvalue]

end ObjectNavigation.Decimal
