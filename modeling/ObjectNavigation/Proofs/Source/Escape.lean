import Mathlib.Algebra.Group.Nat.Defs
import ObjectNavigation.Source.Escape
import ObjectNavigation.Text.Quoted

/-!
Quoted text reads back. Every character of a text is written in a way that stands for it alone, be
it by itself, by a letter after a backslash or by its code point.
-/

namespace ObjectNavigation.Source

theorem hexDigit?_digitChar : ∀ n < 16, hexDigit? n.digitChar = some n := by
  decide

theorem digitChar_ne : ∀ n < 16, n.digitChar ≠ '\x7d' ∧ n.digitChar ≠ '_' := by
  decide

theorem codePoint?_digitChar {digit : Nat} (hdigit : digit < 16) {value count : Nat}
    (hcount : count < 6) (rest : List Char) :
    codePoint? value count (digit.digitChar :: rest) =
      codePoint? (16 * value + digit) (count + 1) rest := by
  rw [codePoint?, if_neg (digitChar_ne digit hdigit).1, if_neg (digitChar_ne digit hdigit).2,
    hexDigit?_digitChar digit hdigit]
  exact if_pos hcount

theorem codePoint?_toDigits (n : Nat) {value count : Nat} (rest : List Char)
    (hcount : count + (Nat.toDigits 16 n).length ≤ 6) :
    codePoint? value count (Nat.toDigits 16 n ++ rest) =
      codePoint? (16 ^ (Nat.toDigits 16 n).length * value + n)
        (count + (Nat.toDigits 16 n).length) rest := by
  induction n using Nat.strongRecOn generalizing value count rest with
  | _ n ih =>
    by_cases hsmall : n < 16
    · rw [Nat.toDigits_of_lt_base hsmall] at hcount ⊢
      exact codePoint?_digitChar hsmall hcount rest
    · have hbase : 16 ≤ n := Nat.le_of_not_lt hsmall
      rw [Nat.toDigits_of_base_le (by decide) hbase] at hcount ⊢
      rw [List.length_append, List.length_singleton] at hcount ⊢
      rw [List.append_assoc, ih (n / 16) (Nat.div_lt_self (by omega) (by decide)) _ (by omega),
        List.singleton_append, codePoint?_digitChar (Nat.mod_lt _ (by decide)) (by omega)]
      congr 1
      rw [Nat.pow_succ, Nat.mul_add, Nat.mul_comm (16 ^ _) 16, Nat.mul_assoc]
      omega

theorem scalar?_toNat (c : Char) : scalar? c.toNat = some c := by
  have hvalid : c.toNat.isValidChar := c.valid
  rw [scalar?, if_pos hvalid, Char.ofNat_toNat]

theorem escape?_codePoint (c : Char) (rest : List Char) :
    escape? .string ('u' :: '{' :: (Nat.toDigits 16 c.toNat ++ '}' :: rest)) = some (c, rest) := by
  have hlength : (Nat.toDigits 16 c.toNat).length ≤ 6 := by
    have hlt : c.toNat < 0x110000 := by
      rcases c.valid with h | ⟨_, h⟩
      · exact Nat.lt_trans h (by decide)
      · exact h
    exact (Nat.length_toDigits_le_iff (by decide) (by decide)).2 (Nat.lt_trans hlt (by decide))
  have hpos : (Nat.toDigits 16 c.toNat).length ≠ 0 := Nat.ne_of_gt Nat.length_toDigits_pos
  have hread : codePoint? 0 0 (Nat.toDigits 16 c.toNat ++ '}' :: rest) = some (c.toNat, rest) := by
    rw [codePoint?_toDigits c.toNat _ (by omega), Nat.mul_zero, Nat.zero_add, Nat.zero_add,
      codePoint?, if_pos rfl, if_neg hpos]
  simp [escape?, hread, scalar?_toNat, Flavor.string, Flavor.admits]

theorem cookedWithin_escape {c : Char} {cs rest : List Char} (rounds : Nat)
    (hline : (cs.head?.any fun next => next = '\n' || next = '\r') = false)
    (h : escape? .string cs = some (c, rest)) :
    cookedWithin .string (rounds + 1) ('\\' :: cs) =
      (cookedWithin .string rounds rest).map fun found => (c :: found.1, found.2) := by
  rw [cookedWithin, if_neg (by decide), if_pos rfl, hline, if_neg Bool.false_ne_true, h]
  change ((cookedWithin .string rounds rest).bind fun found => some (c :: found.1, found.2)) = _
  rw [Option.map_eq_bind]
  rfl

theorem cookedWithin_char (c : Char) (rounds : Nat) (rest : List Char) :
    cookedWithin .string (rounds + 1) (Quoted.char c ++ rest) =
      (cookedWithin .string rounds rest).map fun found => (c :: found.1, found.2) := by
  rw [Quoted.char]
  split
  next l hletter =>
    unfold Quoted.letter? at hletter
    split at hletter <;> cases hletter <;> exact cookedWithin_escape rounds rfl rfl
  next hnone =>
    split
    next =>
      have hquote : c ≠ '"' := by
        rintro rfl
        cases hnone
      have hbackslash : c ≠ '\\' := by
        rintro rfl
        cases hnone
      have hreturn : c ≠ '\r' := by
        rintro rfl
        cases hnone
      have hplain : Flavor.string.plain c = true := rfl
      rw [List.singleton_append, cookedWithin, if_neg hquote, if_neg hbackslash, if_neg hreturn,
        if_pos hplain]
      change ((cookedWithin .string rounds rest).bind fun found => some (c :: found.1, found.2)) = _
      rw [Option.map_eq_bind]
      rfl
    next =>
      rw [Quoted.codePoint, List.cons_append, List.cons_append, List.cons_append,
        List.append_assoc, List.singleton_append]
      exact cookedWithin_escape rounds rfl (escape?_codePoint c rest)

theorem length_le_flatMap_char (cs : List Char) : cs.length ≤ (cs.flatMap Quoted.char).length := by
  induction cs with
  | nil => exact Nat.le_refl 0
  | cons c cs ih =>
    have hchar : 0 < (Quoted.char c).length := by
      rw [Quoted.char]
      split
      · exact Nat.succ_pos _
      · split <;> exact Nat.succ_pos _
    rw [List.flatMap_cons, List.length_append, List.length_cons]
    omega

theorem cookedWithin_chars (cs tail : List Char) {rounds : Nat} (h : cs.length < rounds) :
    cookedWithin .string rounds (cs.flatMap Quoted.char ++ '"' :: tail) = some (cs, tail) := by
  induction cs generalizing rounds with
  | nil =>
    obtain ⟨rounds, rfl⟩ := Nat.exists_eq_succ_of_ne_zero (Nat.ne_of_gt h)
    rfl
  | cons c cs ih =>
    obtain ⟨rounds, rfl⟩ := Nat.exists_eq_succ_of_ne_zero (Nat.ne_of_gt (Nat.zero_lt_of_lt h))
    rw [List.flatMap_cons, List.append_assoc, cookedWithin_char,
      ih (Nat.lt_of_succ_lt_succ h)]
    rfl

/-- A quoted text is read as the text, whatever follows the closing quote. -/
theorem cooked?_chars (cs tail : List Char) :
    cooked? .string (cs.flatMap Quoted.char ++ '"' :: tail) = some (cs, tail) := by
  have hlength := length_le_flatMap_char cs
  refine cookedWithin_chars cs tail ?_
  rw [List.length_append, List.length_cons]
  omega

end ObjectNavigation.Source
