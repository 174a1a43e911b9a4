import ObjectNavigation.Decimal.Shortest
import ObjectNavigation.Source.Number

/-!
Reading numbers back. Digits stand for the whole number that they were written for, if neither a
letter nor a point with a digit follows them; with a point or an exponent they stand for a decimal.
-/

namespace ObjectNavigation.Source

def Digits (cs : List Char) : Prop :=
  ∀ c ∈ cs, c.isDigit = true

/-- Whether no name goes on here. -/
def Ends (tail : List Char) : Prop :=
  ∀ c ∈ tail.head?, isIdentContinue c = false

/-- Whether a point that comes here is one of an access, or of a range. -/
def EndsWhole (tail : List Char) : Prop :=
  Ends tail ∧ ∀ rest, tail = '.' :: rest → ∃ c ∈ rest.head?, isIdentStart c = true

theorem digits_toDigits (n : Nat) : Digits (Nat.toDigits 10 n) :=
  fun _ hc => Nat.isDigit_of_mem_toDigits (by decide) (by decide) hc

theorem digits_replicate (n : Nat) : Digits (List.replicate n '0') := by
  intro c hc
  rw [List.eq_of_mem_replicate hc]
  rfl

theorem Digits.append {cs ds : List Char} (hcs : Digits cs) (hds : Digits ds) :
    Digits (cs ++ ds) := by
  intro c hc
  rcases List.mem_append.1 hc with hc | hc
  · exact hcs c hc
  · exact hds c hc

theorem Digits.sublist {cs ds : List Char} (hds : Digits ds) (h : cs.Sublist ds) : Digits cs :=
  fun c hc => hds c (h.mem hc)

/-! ### Digits among characters -/

theorem of_isDigit {p : Char → Prop} (h : ∀ n < 10, p n.digitChar) {c : Char}
    (hc : c.isDigit = true) : p c := by
  have hbounds : 48 ≤ c.toNat ∧ c.toNat ≤ 57 := Char.isDigit_iff_toNat.1 hc
  have htoNat : ∀ n < 10, n.digitChar.toNat = n + 48 := by decide
  have hlt : c.toNat - 48 < 10 := by omega
  have heq : (c.toNat - 48).digitChar = c := by
    rw [← Char.toNat_inj, htoNat _ hlt]
    omega
  exact heq ▸ h _ hlt

theorem isIdentContinue_of_digit {c : Char} (h : c.isDigit = true) : isIdentContinue c = true :=
  of_isDigit (p := fun c => isIdentContinue c = true) (by decide) h

theorem isIdentStart_of_digit {c : Char} (h : c.isDigit = true) : isIdentStart c = false :=
  of_isDigit (p := fun c => isIdentStart c = false) (by decide) h

theorem isDigitPlace_of_digit {c : Char} (h : c.isDigit = true) : isDigitPlace c = true :=
  of_isDigit (p := fun c => isDigitPlace c = true) (by decide) h

theorem hexDigit?_of_digit {c : Char} (h : c.isDigit = true) :
    hexDigit? c = some (c.toNat - '0'.toNat) ∧ c.toNat - '0'.toNat < 10 :=
  of_isDigit (p := fun c => hexDigit? c = some (c.toNat - '0'.toNat) ∧ c.toNat - '0'.toNat < 10)
    (by decide) h

theorem ne_of_digit {c : Char} (h : c.isDigit = true) :
    c ≠ '_' ∧ c ≠ '.' ∧ isExponentMark c = false ∧ c ≠ '+' ∧ c ≠ '-' :=
  of_isDigit (p := fun c => c ≠ '_' ∧ c ≠ '.' ∧ isExponentMark c = false ∧ c ≠ '+' ∧ c ≠ '-')
    (by decide) h

theorem isDigit_of_not_continue {c : Char} (h : isIdentContinue c = false) :
    c.isDigit = false :=
  Bool.eq_false_iff.2 fun hdigit => by simp [isIdentContinue_of_digit hdigit] at h

theorem isIdentStart_of_not_continue {c : Char} (h : isIdentContinue c = false) :
    isIdentStart c = false :=
  Bool.eq_false_iff.2 fun hstart => by simp [isIdentContinue_of_start hstart] at h

theorem ne_of_not_continue {c : Char} (h : isIdentContinue c = false) :
    c ≠ '_' ∧ c ≠ 'x' ∧ c ≠ 'o' ∧ c ≠ 'b' ∧ isExponentMark c = false := by
  refine ⟨?_, ?_, ?_, ?_, Bool.eq_false_iff.2 fun hmark => ?_⟩
  · rintro rfl
    exact absurd h (by decide)
  · rintro rfl
    exact absurd h (by decide)
  · rintro rfl
    exact absurd h (by decide)
  · rintro rfl
    exact absurd h (by decide)
  · rw [isExponentMark, Bool.or_eq_true, beq_iff_eq, beq_iff_eq] at hmark
    rcases hmark with rfl | rfl <;> exact absurd h (by decide)

theorem isDigitPlace_of_not_continue {c : Char} (h : isIdentContinue c = false) :
    isDigitPlace c = false := by
  rw [isDigitPlace, isDigit_of_not_continue h, Bool.false_or, beq_eq_false_iff_ne]
  exact (ne_of_not_continue h).1

theorem isDigit_of_hexDigit? {c : Char} {digit : Nat} (h : hexDigit? c = some digit)
    (hlt : digit < 10) : c.isDigit = true := by
  rw [hexDigit?] at h
  split at h
  next hbounds => exact Char.isDigit_iff_toNat.2 hbounds
  next =>
    split at h
    · cases h
      omega
    · split at h
      · cases h
        omega
      · cases h

theorem span_digits {ds tail : List Char} (hds : Digits ds)
    (htail : ∀ c ∈ tail.head?, isDigitPlace c = false) :
    (ds ++ tail).takeWhile isDigitPlace = ds ∧ (ds ++ tail).dropWhile isDigitPlace = tail := by
  have hplace : ∀ c ∈ ds, isDigitPlace c = true := fun c hc => isDigitPlace_of_digit (hds c hc)
  rw [List.takeWhile_append_of_pos hplace, List.dropWhile_append_of_pos hplace]
  cases tail with
  | nil => exact ⟨List.append_nil ds, rfl⟩
  | cons c rest =>
    have hc : ¬ isDigitPlace c = true := by
      rw [htail c rfl]
      exact Bool.false_ne_true
    rw [List.takeWhile_cons_of_neg hc, List.dropWhile_cons_of_neg hc]
    exact ⟨List.append_nil ds, rfl⟩

theorem filter_digits {ds : List Char} (hds : Digits ds) : ds.filter Char.isDigit = ds :=
  List.filter_eq_self.2 hds

theorem digitsValue_eq {ds : List Char} (hds : Digits ds) :
    digitsValue ds = Nat.ofDigitChars 10 ds 0 := by
  rw [digitsValue, filter_digits hds]
  rfl

/-! ### Whole numbers -/

theorem afterSuffix?_of_ends {tail : List Char} (h : Ends tail) :
    afterSuffix? tail = some tail := by
  cases tail with
  | nil => rfl
  | cons c rest =>
    have hcontinue : isIdentContinue c = false := h c rfl
    rw [afterSuffix?, isIdentStart_of_not_continue hcontinue, hcontinue]
    rfl

theorem base_of_digits {c : Char} {ds tail : List Char} (hds : Digits ds)
    (htail : ∀ c ∈ tail.head?, c ≠ 'x' ∧ c ≠ 'o' ∧ c ≠ 'b') :
    base (c :: ds ++ tail) = (10, c :: ds ++ tail) := by
  have hsecond : ∀ d ∈ (ds ++ tail).head?, d ≠ 'x' ∧ d ≠ 'o' ∧ d ≠ 'b' := by
    intro d hd
    cases ds with
    | nil => exact htail d hd
    | cons e ds =>
      cases hd
      exact of_isDigit (p := fun c => c ≠ 'x' ∧ c ≠ 'o' ∧ c ≠ 'b') (by decide)
        (hds d List.mem_cons_self)
  rw [List.cons_append]
  unfold base
  split
  next h =>
    rw [(List.cons.inj h).2] at hsecond
    exact absurd rfl (hsecond _ rfl).1
  next h =>
    rw [(List.cons.inj h).2] at hsecond
    exact absurd rfl (hsecond _ rfl).2.1
  next h =>
    rw [(List.cons.inj h).2] at hsecond
    exact absurd rfl (hsecond _ rfl).2.2
  next => rfl

theorem afterDigits?_digits {ds tail : List Char} {empty : Bool} (hds : Digits ds)
    (hsome : empty = false ∨ ds ≠ []) (htail : Ends tail) :
    afterDigits? 10 empty (ds ++ tail) = some tail := by
  induction ds generalizing empty with
  | nil =>
    obtain rfl : empty = false := hsome.resolve_right fun h => h rfl
    cases tail with
    | nil => rfl
    | cons c rest =>
      have hcontinue := htail c rfl
      have hdigit := isDigit_of_not_continue hcontinue
      rw [List.nil_append, afterDigits?, if_neg (ne_of_not_continue hcontinue).1]
      cases hhex : hexDigit? c with
      | none => rfl
      | some digit =>
        have hlarge : ¬ digit < 10 := by
          intro hlt
          rw [isDigit_of_hexDigit? hhex hlt] at hdigit
          cases hdigit
        simp [hlarge, hdigit]
  | cons c ds ih =>
    have hc := hds c List.mem_cons_self
    have hdigit := hexDigit?_of_digit hc
    rw [List.cons_append, afterDigits?, if_neg (ne_of_digit hc).1, hdigit.1]
    dsimp only
    rw [if_pos hdigit.2]
    exact ih (hds.sublist (List.sublist_cons_self c ds)) (Or.inl rfl)

theorem afterNumber?_whole {ds tail : List Char} (hds : Digits ds) (hsome : ds ≠ [])
    (htail : EndsWhole tail) : afterNumber? (ds ++ tail) = some tail := by
  obtain ⟨c, ds, rfl⟩ := List.exists_cons_of_ne_nil hsome
  have hc := hds c List.mem_cons_self
  have hfraction : afterFraction? (c :: ds ++ tail) = none := by
    have hplace : ∀ c ∈ tail.head?, isDigitPlace c = false := fun c hc =>
      isDigitPlace_of_not_continue (htail.1 c hc)
    have hhead : (c :: ds ++ tail).head?.any Char.isDigit = true := hc
    rw [afterFraction?, if_pos hhead, (span_digits hds hplace).2]
    split
    next rest =>
      -- A point before a name or another point is not part of the number.
      obtain ⟨d, hd, hstart⟩ := htail.2 rest rfl
      have hany : (rest.head?.any fun c => c = '.' || isIdentStart c) = true := by
        rw [Option.mem_def.1 hd]
        simp [hstart]
      rw [if_pos hany]
    next d rest _ =>
      rw [(ne_of_not_continue (htail.1 d rfl)).2.2.2.2]
      rfl
    next => rfl
  have hbase := base_of_digits (c := c) (hds.sublist (List.sublist_cons_self c ds))
    fun d hd => by
      obtain ⟨_, hx, ho, hb, _⟩ := ne_of_not_continue (htail.1 d hd)
      exact ⟨hx, ho, hb⟩
  rw [afterNumber?, hfraction, Option.bind_none, Option.none_or, hbase]
  change (afterDigits? 10 true (c :: ds ++ tail)).bind afterSuffix? = some tail
  rw [afterDigits?_digits hds (Or.inr hsome) htail.1]
  exact afterSuffix?_of_ends htail.1

theorem wholeFrom?_digits {ds rest : List Char} (hds : Digits ds) (value : Nat) :
    wholeFrom? 10 value (ds ++ rest) = wholeFrom? 10 (Nat.ofDigitChars 10 ds value) rest := by
  induction ds generalizing value with
  | nil => rfl
  | cons c ds ih =>
    have hc := hds c List.mem_cons_self
    obtain ⟨hline, hpoint, hmark, _⟩ := ne_of_digit hc
    have hdigit := hexDigit?_of_digit hc
    rw [List.cons_append, wholeFrom?, if_neg hline]
    simp only [decide_true, Bool.true_and, hpoint, decide_false, hmark, Bool.false_and,
      Bool.or_false, Bool.false_eq_true, if_false, hdigit.1, hdigit.2, if_true]
    rw [ih (hds.sublist (List.sublist_cons_self c ds)), Nat.ofDigitChars_cons]

theorem whole?_digits {ds : List Char} (hds : Digits ds) (hsome : ds ≠ []) :
    whole? ds = some (Nat.ofDigitChars 10 ds 0, []) := by
  obtain ⟨c, ds, rfl⟩ := List.exists_cons_of_ne_nil hsome
  have hbase : base (c :: ds ++ []) = (10, c :: ds ++ []) :=
    base_of_digits (hds.sublist (List.sublist_cons_self c ds)) nofun
  have hwhole : wholeFrom? 10 0 (c :: ds ++ []) = some (Nat.ofDigitChars 10 (c :: ds) 0, []) :=
    wholeFrom?_digits hds 0
  rw [List.append_nil] at hbase hwhole
  rw [whole?, hbase]
  exact hwhole

theorem ofNumber_toDigits (n : Nat) : Literal.ofNumber (Nat.toDigits 10 n) = .int n := by
  rw [Literal.ofNumber, whole?_digits (digits_toDigits n) Nat.toDigits_ne_nil]
  simp

theorem toList_digits (n : Nat) : (toString n).toList = Nat.toDigits 10 n := by
  rw [Nat.toString_eq_repr, Nat.toList_repr]

theorem index?_toDigits {n : Nat} (h : n < Nat.pow 2 32) : index? (Nat.toDigits 10 n) = some n := by
  have hafter : afterNumber? (Nat.toDigits 10 n ++ []) = some [] :=
    afterNumber?_whole (digits_toDigits n) Nat.toDigits_ne_nil ⟨nofun, nofun⟩
  rw [List.append_nil] at hafter
  rw [index?, hafter, whole?_digits (digits_toDigits n) Nat.toDigits_ne_nil,
    Nat.ofDigitChars_ten_toDigits]
  exact if_pos h

/-! ### Decimals -/

theorem toList_toString_int (z : Int) :
    (toString z).toList = (if z < 0 then ['-'] else []) ++ Nat.toDigits 10 z.natAbs := by
  rw [Int.toString_eq_repr, Int.repr_eq_if]
  by_cases hz : 0 ≤ z
  · rw [if_pos hz, if_neg (Int.not_lt.2 hz), Nat.toList_repr, List.nil_append]
    congr 1
    omega
  · rw [if_neg hz, if_pos (Int.not_le.1 hz), String.toList_append, Nat.toList_repr]
    congr 2
    omega

theorem exponent?_int (z : Int) {tail : List Char}
    (htail : ∀ c ∈ tail.head?, isDigitPlace c = false) :
    exponent? ((toString z).toList ++ tail) = some (Nat.toDigits 10 z.natAbs, tail) := by
  have hdigits := digits_toDigits z.natAbs
  obtain ⟨c, ds, hds⟩ := List.exists_cons_of_ne_nil
    (Nat.toDigits_ne_nil (n := z.natAbs) (b := 10))
  have hc : c.isDigit = true := hdigits c (hds ▸ List.mem_cons_self)
  obtain ⟨hline, _, _, hplus, hminus⟩ := ne_of_digit hc
  have hsign : dropSign (((toString z).toList ++ tail).dropWhile (· == '_')) =
      Nat.toDigits 10 z.natAbs ++ tail := by
    rw [toList_toString_int]
    by_cases hz : z < 0
    · rw [if_pos hz]
      rfl
    · rw [if_neg hz, List.nil_append, hds, List.cons_append,
        List.dropWhile_cons_of_neg (by simpa using hline)]
      unfold dropSign
      split
      next h => exact absurd (List.cons.inj h).1 hplus
      next h => exact absurd (List.cons.inj h).1 hminus
      next => rfl
  have hany : (Nat.toDigits 10 z.natAbs).any Char.isDigit = true := by
    rw [hds, List.any_cons, hc, Bool.true_or]
  rw [exponent?, hsign, (span_digits hdigits htail).1, if_pos hany, List.drop_left]

theorem isExponent_digits {ds : List Char} (hds : Digits ds) {seen : Bool}
    (hsome : seen = true ∨ ds ≠ []) : isExponent seen ds = true := by
  induction ds generalizing seen with
  | nil => exact hsome.resolve_right fun h => h rfl
  | cons c ds ih =>
    have hc := hds c List.mem_cons_self
    rw [isExponent, if_neg (ne_of_digit hc).1, if_pos hc]
    exact ih (hds.sublist (List.sublist_cons_self c ds)) (Or.inl rfl)

theorem isExponent_int (z : Int) : isExponent false (toString z).toList = true := by
  rw [toList_toString_int]
  by_cases hz : z < 0
  · rw [if_pos hz]
    rfl
  · rw [if_neg hz]
    exact isExponent_digits (digits_toDigits _) (Or.inr Nat.toDigits_ne_nil)

def exponentText (exponent : Option Int) : List Char :=
  exponent.elim [] fun z => 'e' :: (toString z).toList

/-- What follows the whole part of a decimal: the places after a point, and an exponent. -/
def fractionText (places : List Char) (exponent : Option Int) : List Char :=
  (if places = [] then [] else '.' :: places) ++ exponentText exponent

/-- What the parts of a decimal stand for. -/
def fractionNumeral (whole places : List Char) (exponent : Option Int) : Decimal.Numeral :=
  ⟨Nat.ofDigitChars 10 (whole ++ places) 0, exponent.getD 0 - places.length⟩

section Fraction
variable {whole places tail : List Char} {exponent : Option Int}

theorem fractionText_cases (hlong : places ≠ [] ∨ exponent ≠ none) :
    (places = [] ∧ ∃ z, exponent = some z ∧
      fractionText places exponent = 'e' :: (toString z).toList) ∨
    places ≠ [] ∧ fractionText places exponent = '.' :: (places ++ exponentText exponent) := by
  by_cases hnone : places = []
  · obtain ⟨z, rfl⟩ := Option.ne_none_iff_exists'.1 (hlong.resolve_left fun h => h hnone)
    exact Or.inl ⟨hnone, z, rfl, by rw [fractionText, if_pos hnone]; rfl⟩
  · exact Or.inr ⟨hnone, by rw [fractionText, if_neg hnone]; rfl⟩

theorem fractionText_head (hlong : places ≠ [] ∨ exponent ≠ none) :
    ∀ c ∈ (fractionText places exponent ++ tail).head?, c = '.' ∨ c = 'e' := by
  intro c hc
  rcases fractionText_cases hlong with ⟨_, z, _, htext⟩ | ⟨_, htext⟩
  · rw [htext] at hc
    cases hc
    exact Or.inr rfl
  · rw [htext] at hc
    cases hc
    exact Or.inl rfl

theorem fractionText_stops (hlong : places ≠ [] ∨ exponent ≠ none) :
    ∀ c ∈ (fractionText places exponent ++ tail).head?, isDigitPlace c = false := by
  intro c hc
  rcases fractionText_head hlong c hc with rfl | rfl <;> rfl

theorem exponentText_stops (htail : Ends tail) :
    ∀ c ∈ (exponentText exponent ++ tail).head?, isDigitPlace c = false := by
  intro c hc
  cases exponent with
  | none => exact isDigitPlace_of_not_continue (htail c hc)
  | some z =>
    cases hc
    rfl

theorem afterExponent_exponent (htail : Ends tail) :
    afterExponent (exponentText exponent ++ tail) = tail := by
  cases exponent with
  | none =>
    cases tail with
    | nil => rfl
    | cons c rest =>
      have hmark := (ne_of_not_continue (htail c rfl)).2.2.2.2
      change (if isExponentMark c then (exponent? rest).elim (c :: rest) Prod.snd
        else c :: rest) = _
      rw [hmark]
      rfl
  | some z =>
    change (exponent? ((toString z).toList ++ tail)).elim _ Prod.snd = tail
    rw [exponent?_int z fun c hc => isDigitPlace_of_not_continue (htail c hc)]
    rfl

theorem afterNumber?_fraction (hwhole : Digits whole) (hsome : whole ≠ []) (hplaces : Digits places)
    (hlong : places ≠ [] ∨ exponent ≠ none) (htail : Ends tail) :
    afterNumber? (whole ++ fractionText places exponent ++ tail) = some tail := by
  have hhead : (whole ++ (fractionText places exponent ++ tail)).head?.any Char.isDigit = true := by
    obtain ⟨c, ds, rfl⟩ := List.exists_cons_of_ne_nil hsome
    exact hwhole c List.mem_cons_self
  have hfraction : afterFraction? (whole ++ fractionText places exponent ++ tail) = some tail := by
    rw [List.append_assoc, afterFraction?, if_pos hhead,
      (span_digits hwhole (fractionText_stops hlong)).2]
    rcases fractionText_cases hlong with ⟨_, z, _, htext⟩ | ⟨hnone, htext⟩
    · rw [htext]
      change (exponent? ((toString z).toList ++ tail)).map Prod.snd = some tail
      rw [exponent?_int z fun c hc => isDigitPlace_of_not_continue (htail c hc)]
      rfl
    · obtain ⟨c, ds, rfl⟩ := List.exists_cons_of_ne_nil hnone
      have hc := hplaces c List.mem_cons_self
      have hpoint : ¬ (((c :: ds ++ (exponentText exponent ++ tail)).head?.any
          fun c => c = '.' || isIdentStart c) = true) := by
        simp [isIdentStart_of_digit hc, (ne_of_digit hc).2.1]
      rw [htext, List.cons_append, List.append_assoc]
      change (if _ then none else some (afterExponent
        ((c :: ds ++ (exponentText exponent ++ tail)).dropWhile isDigitPlace))) = some tail
      rw [if_neg hpoint, (span_digits hplaces (exponentText_stops htail)).2,
        afterExponent_exponent htail]
  rw [afterNumber?, hfraction, Option.bind_some, afterSuffix?_of_ends htail, Option.some_or]

theorem whole?_fraction (hwhole : Digits whole) (hsome : whole ≠ [])
    (hlong : places ≠ [] ∨ exponent ≠ none) :
    whole? (whole ++ fractionText places exponent) = none := by
  obtain ⟨c, ds, rfl⟩ := List.exists_cons_of_ne_nil hsome
  have hletter : ∀ d ∈ (fractionText places exponent).head?, d ≠ 'x' ∧ d ≠ 'o' ∧ d ≠ 'b' := by
    intro d hd
    rw [← List.append_nil (fractionText places exponent)] at hd
    rcases fractionText_head hlong d hd with rfl | rfl <;> decide
  rw [whole?, base_of_digits (hwhole.sublist (List.sublist_cons_self c ds)) hletter]
  change wholeFrom? 10 0 (c :: ds ++ fractionText places exponent) = none
  rw [wholeFrom?_digits hwhole]
  rcases fractionText_cases hlong with ⟨_, z, _, htext⟩ | ⟨_, htext⟩
  · have hexponent : (decide ('e' = '.') || isExponentMark 'e' &&
        isExponent false (toString z).toList) = true := by
      rw [isExponent_int]
      rfl
    rw [htext, wholeFrom?, if_neg (by decide), hexponent]
    rfl
  · rw [htext]
    rfl

theorem exponentValue_exponent : exponentValue (exponentText exponent) = exponent.getD 0 := by
  cases exponent with
  | none => rfl
  | some z =>
    have hread : exponent? ((toString z).toList ++ []) = some (Nat.toDigits 10 z.natAbs, []) :=
      exponent?_int z nofun
    rw [List.append_nil] at hread
    have hdigits : digitsValue (Nat.toDigits 10 z.natAbs) = z.natAbs := by
      rw [digitsValue_eq (digits_toDigits _), Nat.ofDigitChars_ten_toDigits]
    have htext : exponentText (some z) = 'e' :: (toString z).toList := rfl
    have hmark : isExponentMark 'e' = true := rfl
    rw [htext, exponentValue, if_pos hmark, hread, Option.getD_some]
    dsimp only
    rw [hdigits, toList_toString_int]
    by_cases hz : z < 0
    · rw [if_pos hz]
      exact (if_pos rfl).trans (by omega)
    · obtain ⟨c, ds, hds⟩ := List.exists_cons_of_ne_nil
        (Nat.toDigits_ne_nil (n := z.natAbs) (b := 10))
      have hc := digits_toDigits z.natAbs c (hds ▸ List.mem_cons_self)
      obtain ⟨hline, _, _, _, hminus⟩ := ne_of_digit hc
      rw [if_neg hz, List.nil_append, hds, List.dropWhile_cons_of_neg (by simpa using hline),
        List.head?_cons, if_neg (by simpa using hminus)]
      omega

theorem ofNumber_fraction (hwhole : Digits whole) (hsome : whole ≠ []) (hplaces : Digits places)
    (hlong : places ≠ [] ∨ exponent ≠ none) :
    Literal.ofNumber (whole ++ fractionText places exponent) =
      .float (fractionNumeral whole places exponent).digits
        (fractionNumeral whole places exponent).exponent := by
  have hstops : ∀ c ∈ (fractionText places exponent ++ []).head?, isDigitPlace c = false :=
    fractionText_stops hlong
  rw [List.append_nil] at hstops
  have hspan := span_digits hwhole hstops
  have hcount : places.countP Char.isDigit = places.length :=
    List.countP_eq_length.2 hplaces
  rw [Literal.ofNumber, whole?_fraction hwhole hsome hlong]
  change fraction (whole ++ fractionText places exponent) = _
  rw [fraction, hspan.1, List.drop_left]
  rcases fractionText_cases hlong with ⟨hnone, z, hz, htext⟩ | ⟨_, htext⟩
  · have hvalue : exponentValue (exponentText (some z)) = z := exponentValue_exponent
    rw [htext]
    change Literal.float (digitsValue (whole ++ []))
      (exponentValue (exponentText (some z)) - 0) = _
    rw [List.append_nil, hvalue, digitsValue_eq hwhole, fractionNumeral, hnone, hz, List.append_nil]
    rfl
  · have hplace : ∀ c ∈ (exponentText exponent ++ []).head?, isDigitPlace c = false :=
      exponentText_stops nofun
    rw [List.append_nil] at hplace
    rw [htext]
    change Literal.float
      (digitsValue (whole ++ (places ++ exponentText exponent).takeWhile isDigitPlace))
      (exponentValue ((places ++ exponentText exponent).dropWhile isDigitPlace) -
        ((places ++ exponentText exponent).takeWhile isDigitPlace).countP Char.isDigit) = _
    rw [(span_digits hplaces hplace).1, (span_digits hplaces hplace).2, hcount,
      exponentValue_exponent, digitsValue_eq (hwhole.append hplaces)]
    rfl

end Fraction

end ObjectNavigation.Source
