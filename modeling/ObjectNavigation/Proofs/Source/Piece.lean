import ObjectNavigation.Proofs.Source.Escape
import ObjectNavigation.Proofs.Source.Formed
import ObjectNavigation.Proofs.Source.Numeral

/-!
Cutting a text into tokens piece by piece. A piece is read as the same tokens whatever comes before
it, but what follows it can matter: a name ends where no character of a name follows, and whether a
mark belongs to the next one is told by the next one. Rounds bound the lexer, so a piece may take no
more of them than it has characters.
-/

namespace ObjectNavigation.Source

variable {total : Nat} {c : Char} {cs tail : List Char} {lexemes more : List Lexeme}

/-! ### Lexemes one by one -/

/-- Whether a text is cut into these lexemes. -/
def Lexes (total : Nat) (cs : List Char) (lexemes : List Lexeme) : Prop :=
  ∃ rounds ≤ cs.length, lexemesWithin total rounds cs = some lexemes

theorem lexemesWithin_of_nil (rounds : Nat) (h : skipBlanks cs = []) :
    lexemesWithin total rounds cs = some [] := by
  rw [lexemesWithin.eq_def]
  dsimp only
  rw [h]

theorem lexemesWithin_of_cons {rest : List Char} {rounds : Nat} (h : skipBlanks cs = c :: rest) :
    lexemesWithin total (rounds + 1) cs = do
      let (found, rest) ← lexeme? (total - (rest.length + 1)) (c :: rest)
      return found ++ (← lexemesWithin total rounds rest) := by
  rw [lexemesWithin.eq_def]
  dsimp only
  rw [h]

theorem lexemesWithin_mono {few many : Nat} (h : few ≤ many)
    (hcs : lexemesWithin total few cs = some lexemes) :
    lexemesWithin total many cs = some lexemes := by
  induction few generalizing many cs lexemes with
  | zero =>
    rw [lexemesWithin.eq_def] at hcs
    dsimp only at hcs
    split at hcs
    next hblank =>
      rw [lexemesWithin_of_nil many hblank]
      exact hcs
    next => cases hcs
  | succ few ih =>
    obtain ⟨many, rfl⟩ : ∃ n, many = n + 1 := ⟨many - 1, by omega⟩
    cases hblank : skipBlanks cs with
    | nil =>
      rw [lexemesWithin_of_nil _ hblank] at hcs ⊢
      exact hcs
    | cons c rest =>
      rw [lexemesWithin_of_cons hblank] at hcs ⊢
      obtain ⟨⟨found, rest⟩, hfound, hcs⟩ := Option.bind_eq_some_iff.1 hcs
      obtain ⟨more, hmore, hcs⟩ := Option.bind_eq_some_iff.1 hcs
      refine Option.bind_eq_some_iff.2 ⟨_, hfound, Option.bind_eq_some_iff.2 ⟨more, ?_, hcs⟩⟩
      exact ih (Nat.le_of_succ_le_succ h) hmore

theorem Lexes.nil : Lexes total [] [] :=
  ⟨0, Nat.le_refl 0, rfl⟩

theorem Lexes.blank (h : Lexes total tail more) : Lexes total (' ' :: tail) more := by
  obtain ⟨rounds, hrounds, h⟩ := h
  refine ⟨rounds, Nat.le_succ_of_le hrounds, ?_⟩
  rw [lexemesWithin.eq_def] at h ⊢
  exact h

/-- Whether a text starts with neither a blank nor a comment. -/
def Starts (cs : List Char) : Prop :=
  skipBlanks cs = cs

/-- Whether neither a blank nor a comment can start with a character. -/
def Opens (c : Char) : Prop :=
  isBlank c = false ∧ c ≠ '/'

theorem Opens.starts (h : Opens c) (rest : List Char) : Starts (c :: rest) := by
  rw [Starts, skipBlanks, List.length_cons, skipBlanksWithin, if_neg h.2, h.1]
  rfl

theorem Opens.documentation? (h : Opens c) (rest : List Char) :
    documentation? (c :: rest) = none := by
  rw [Source.documentation?]
  all_goals
    intros
    next heq => exact h.2 (List.cons.inj heq).1

theorem Lexes.cons {found : List Lexeme} (hstarts : Starts (c :: cs))
    (hlexeme : lexeme? (total - (cs.length + 1)) (c :: cs) = some (found, tail))
    (hshort : tail.length ≤ cs.length) (h : Lexes total tail more) :
    Lexes total (c :: cs) (found ++ more) := by
  obtain ⟨rounds, hrounds, h⟩ := h
  refine ⟨rounds + 1, Nat.succ_le_succ (Nat.le_trans hrounds hshort), ?_⟩
  rw [lexemesWithin_of_cons hstarts]
  exact Option.bind_eq_some_iff.2 ⟨_, hlexeme, Option.bind_eq_some_iff.2 ⟨more, h, rfl⟩⟩

/-! ### Pieces -/

/-- Whether lexemes are nested to these tokens. -/
def Nests (lexemes : List Lexeme) (tokens : List Token) : Prop :=
  ∀ outer before more, nest? outer before (lexemes ++ more) =
    nest? outer (tokens.reverse ++ before) more

/-- Whether a piece of text in front of `tail` is read as tokens of this kind. -/
def Piece (cs tail : List Char) (p : List Token → Prop) : Prop :=
  ∀ total more, Lexes total tail more → ∃ lexemes tokens,
    Lexes total (cs ++ tail) (lexemes ++ more) ∧ Nests lexemes tokens ∧ p tokens

namespace Piece
variable {p q : List Token → Prop} {cs ds tail : List Char}

theorem mono (h : Piece cs tail p) (hp : ∀ tokens, p tokens → q tokens) : Piece cs tail q := by
  intro total more hmore
  obtain ⟨lexemes, tokens, hlexes, hnests, htokens⟩ := h total more hmore
  exact ⟨lexemes, tokens, hlexes, hnests, hp tokens htokens⟩

theorem append (h : Piece cs (ds ++ tail) p) (hds : Piece ds tail q) :
    Piece (cs ++ ds) tail fun tokens =>
      ∃ first last, tokens = first ++ last ∧ p first ∧ q last := by
  intro total more hmore
  obtain ⟨last, others, hlast, hnests', hothers⟩ := hds total more hmore
  obtain ⟨first, tokens, hfirst, hnests, htokens⟩ := h total _ hlast
  refine ⟨first ++ last, tokens ++ others, ?_, fun outer before more => ?_, tokens, others, rfl,
    htokens, hothers⟩
  · rwa [List.append_assoc, List.append_assoc]
  · rw [List.append_assoc, hnests, hnests', List.reverse_append, List.append_assoc]

theorem nil (h : p []) : Piece [] tail p :=
  fun _ _ hmore => ⟨[], [], hmore, fun _ _ _ => rfl, h⟩

theorem blank (h : p []) : Piece [' '] tail p :=
  fun _ _ hmore => ⟨[], [], hmore.blank, fun _ _ _ => rfl, h⟩

theorem leaf {c : Char} {token : Nat → Token} (hstarts : Starts (c :: (cs ++ tail)))
    (hdocumentation : documentation? (c :: (cs ++ tail)) = none) (hbracket : bracket? c = none)
    (hleaf : ∀ offset, leaf? offset (c :: (cs ++ tail)) = some (token offset, tail)) :
    Piece (c :: cs) tail fun tokens => ∃ offset, tokens = [token offset] := by
  intro total more hmore
  refine ⟨[.token (token (total - ((cs ++ tail).length + 1)))], _, ?_, fun _ _ _ => rfl, _, rfl⟩
  have hlexeme : lexeme? (total - ((cs ++ tail).length + 1)) (c :: (cs ++ tail)) =
      some ([.token (token (total - ((cs ++ tail).length + 1)))], tail) := by
    rw [lexeme?.eq_def, hdocumentation]
    dsimp only
    rw [hbracket, hleaf]
    rfl
  have hshort : tail.length ≤ (cs ++ tail).length := by
    rw [List.length_append]
    omega
  exact Lexes.cons hstarts hlexeme hshort hmore

theorem group {delimiter : Delimiter} {opening closing : Char} (hopening : Opens opening)
    (hclosing : Opens closing) (hopens : bracket? opening = some (delimiter, true))
    (hcloses : bracket? closing = some (delimiter, false)) (h : Piece cs (closing :: tail) p) :
    Piece (opening :: (cs ++ [closing])) tail fun tokens =>
      ∃ offset content, tokens = [.group offset delimiter content] ∧ p content := by
  intro total more hmore
  have hbracket : ∀ {c : Char} (offset : Nat) (rest : List Char) {found : Bool}, Opens c →
      bracket? c = some (delimiter, found) → lexeme? offset (c :: rest) =
        some ([if found then .opening offset delimiter else .closing delimiter], rest) := by
    intro c offset rest found hc hbracket
    rw [lexeme?.eq_def, hc.documentation?]
    dsimp only
    rw [hbracket]
    cases found <;> rfl
  have hend : Lexes total (closing :: tail) ([.closing delimiter] ++ more) :=
    Lexes.cons (hclosing.starts tail) (hbracket _ tail hclosing hcloses) (Nat.le_refl _) hmore
  obtain ⟨lexemes, content, hcontent, hnests, hp⟩ := h total _ hend
  obtain ⟨offset, hoffset⟩ : ∃ n, n = total - ((cs ++ closing :: tail).length + 1) := ⟨_, rfl⟩
  refine ⟨.opening offset delimiter :: (lexemes ++ [.closing delimiter]),
    [.group offset delimiter content], ?_, fun outer before more => ?_, offset, content, rfl, hp⟩
  · have hstart := Lexes.cons (hopening.starts (cs ++ closing :: tail))
      (hbracket _ _ hopening hopens) (Nat.le_refl _) hcontent
    simpa [hoffset] using hstart
  · rw [List.cons_append, nest?, List.append_assoc, hnests]
    simp [nest?]

end Piece
/-! ### Characters of names -/

theorem isBlank_of_continue {c : Char} (h : isIdentContinue c = true) : isBlank c = false := by
  have hblanks : ∀ range ∈ blankRanges, ∀ k < range.2 + 1 - range.1,
      isIdentContinue (Char.ofNat (range.1 + k)) = false := by decide +kernel
  refine Bool.eq_false_iff.2 fun hblank => ?_
  obtain ⟨range, hrange, hlow, hhigh⟩ := CharRanges.contains_iff.1 hblank
  have hc := hblanks range hrange (c.toNat - range.1) (by omega)
  rw [Nat.add_sub_cancel' hlow, Char.ofNat_toNat, h] at hc
  cases hc

theorem Opens.of_continue {c : Char} (h : isIdentContinue c = true) : Opens c := by
  refine ⟨isBlank_of_continue h, ?_⟩
  rintro rfl
  cases h

theorem bracket?_of_continue {c : Char} (h : isIdentContinue c = true) : bracket? c = none := by
  rw [bracket?]
  all_goals
    rintro rfl
    cases h

theorem isMark_of_continue {c : Char} (h : isIdentContinue c = true) : isMark c = false := by
  have hmarks : "~!@#$%^&*-=+|;:,<.>/?'".toList.all (!isIdentContinue ·) = true := by decide
  refine Bool.eq_false_iff.2 fun hmark => ?_
  have hc := List.all_eq_true.1 hmarks c (List.contains_iff_mem.1 hmark)
  rw [h] at hc
  cases hc

theorem startsMark_of_continue {c : Char} (h : isIdentContinue c = true) (rest : List Char) :
    startsMark (c :: rest) = false := by
  rw [startsMark]
  · exact isMark_of_continue h
  all_goals
    rintro _ rfl
    cases h

/-! ### Names -/

/-- What may follow the text of an operand or of a part of a path. -/
def Follows (tail : List Char) : Prop :=
  ∀ c ∈ tail.head?, c ∈ [' ', ')', ']', ',', '.', '(', ':']

theorem Follows.ends (h : Follows tail) : Ends tail := by
  intro c hc
  have hfollows := h c hc
  revert hfollows
  simp only [List.mem_cons, List.not_mem_nil, or_false]
  rintro (rfl | rfl | rfl | rfl | rfl | rfl | rfl) <;> decide

/-- Whether a quote or a fence comes after the name at the front, if there is one. -/
def Quotes (cs : List Char) : Prop :=
  ∃ c ∈ (cs.dropWhile isIdentContinue).head?, c ∈ ['"', '\'', '#']

theorem Follows.not_quotes (h : Follows tail) {name : List Char}
    (hname : ∀ c ∈ name, isIdentContinue c = true) : ¬ Quotes (name ++ tail) := by
  rintro ⟨c, hc, hquote⟩
  rw [List.dropWhile_append_of_pos hname] at hc
  cases tail with
  | nil => cases hc
  | cons d rest =>
    rw [List.dropWhile_cons_of_neg (Bool.eq_false_iff.1 (h.ends d rfl))] at hc
    obtain rfl := Option.some.inj hc
    have hfollows := h d rfl
    revert hquote hfollows
    simp only [List.mem_cons, List.not_mem_nil, or_false]
    rintro (rfl | rfl | rfl) <;> decide

theorem quotes_of_opensLiteral (h : opensLiteral cs = true) : Quotes cs := by
  obtain ⟨opening, hopening, hprefix⟩ := List.any_eq_true.1 h
  obtain ⟨rest, rfl⟩ := List.isPrefixOf_iff_prefix.1 hprefix
  simp only [literalOpenings, List.mem_cons, List.not_mem_nil, or_false] at hopening
  rcases hopening with rfl | rfl | rfl | rfl | rfl | rfl | rfl | rfl | rfl | rfl
  · exact ⟨'"', rfl, by decide⟩
  · exact ⟨'#', rfl, by decide⟩
  · exact ⟨'#', rfl, by decide⟩
  · exact ⟨'"', rfl, by decide⟩
  · exact ⟨'\'', rfl, by decide⟩
  · exact ⟨'"', rfl, by decide⟩
  · exact ⟨'#', rfl, by decide⟩
  · exact ⟨'"', rfl, by decide⟩
  · exact ⟨'"', rfl, by decide⟩
  · exact ⟨'#', rfl, by decide⟩

theorem quotes_of_head (h : ∃ c ∈ cs.head?, c ∈ ['"', '\'', '#']) : Quotes cs := by
  obtain ⟨c, hc, hquote⟩ := h
  cases cs with
  | nil => cases hc
  | cons d rest =>
    obtain rfl := Option.some.inj hc
    have hend : ¬ isIdentContinue d = true := by
      revert hquote
      simp only [List.mem_cons, List.not_mem_nil, or_false]
      rintro (rfl | rfl | rfl) <;> decide
    exact ⟨d, by rw [List.dropWhile_cons_of_neg hend]; rfl, hquote⟩

theorem quotes_of_raw? {flavor : Flavor} (h : raw? flavor cs ≠ none) : Quotes cs := by
  refine quotes_of_head ?_
  cases cs with
  | nil => exact absurd rfl h
  | cons c cs =>
    by_cases hc : c = '#'
    · exact ⟨c, rfl, by simp [hc]⟩
    · have hfence : (c :: cs).takeWhile (· == '#') = [] :=
        List.takeWhile_cons_of_neg (by simpa using hc)
      rw [raw?, hfence] at h
      dsimp only [List.length_nil, List.drop_zero] at h
      split at h
      next rest heq => exact ⟨c, rfl, by simp [(List.cons.inj heq).1]⟩
      next => exact absurd rfl h

theorem quotes_of_quotedLiteral? (h : quotedLiteral? cs ≠ none) : Quotes cs := by
  have hraw : ∀ {flavor : Flavor} {f : List Char × List Char → Literal × List Char}
      {name rest : List Char}, name.all isIdentContinue = true →
      (raw? flavor rest).map f ≠ none → Quotes (name ++ rest) := by
    intro flavor f name rest hname h
    rw [Quotes, List.dropWhile_append_of_pos (List.all_eq_true.1 hname)]
    exact quotes_of_raw? fun hnone => h (by rw [hnone]; rfl)
  rw [quotedLiteral?.eq_def] at h
  split at h
  · exact ⟨'"', rfl, by decide⟩
  · exact hraw (by decide : List.all ['r'] isIdentContinue = true) h
  · exact ⟨'"', rfl, by decide⟩
  · exact hraw (by decide : List.all ['b', 'r'] isIdentContinue = true) h
  · exact ⟨'\'', rfl, by decide⟩
  · exact ⟨'"', rfl, by decide⟩
  · exact hraw (by decide : List.all ['c', 'r'] isIdentContinue = true) h
  · exact ⟨'\'', rfl, by decide⟩
  · exact absurd rfl h

theorem plainName?_iff {cs : List Char} : plainName? cs = some (cs, []) ↔
    ∃ c ds, cs = c :: ds ∧ isIdentStart c = true ∧ ∀ d ∈ ds, isIdentContinue d = true := by
  constructor
  · intro h
    cases cs with
    | nil => cases h
    | cons c ds =>
      rw [plainName?] at h
      split at h
      next hstart =>
        refine ⟨c, ds, rfl, hstart, List.dropWhile_eq_nil_iff.1 ?_⟩
        exact (Prod.mk.inj (Option.some.inj h)).2
      next => cases h
  · rintro ⟨c, ds, rfl, hstart, hds⟩
    rw [plainName?, if_pos hstart, List.takeWhile_eq_self_iff.2 hds,
      List.dropWhile_eq_nil_iff.2 hds]

theorem plainName?_append {cs : List Char} (h : plainName? cs = some (cs, [])) (htail : Ends tail) :
    plainName? (cs ++ tail) = some (cs, tail) := by
  obtain ⟨c, ds, rfl, hstart, hds⟩ := plainName?_iff.1 h
  rw [List.cons_append, plainName?, if_pos hstart, List.takeWhile_append_of_pos hds,
    List.dropWhile_append_of_pos hds]
  cases tail with
  | nil => rw [List.takeWhile_nil, List.dropWhile_nil, List.append_nil]
  | cons d rest =>
    have hend : ¬ isIdentContinue d = true := Bool.eq_false_iff.1 (htail d rfl)
    rw [List.takeWhile_cons_of_neg hend, List.dropWhile_cons_of_neg hend, List.append_nil]

/-- No number starts with what a name starts with. -/
theorem afterNumber?_of_start {c : Char} (h : isIdentStart c = true) (rest : List Char) :
    afterNumber? (c :: rest) = none := by
  have hdigit : c.isDigit = false :=
    Bool.eq_false_iff.2 fun hdigit => by rw [isIdentStart_of_digit hdigit] at h; cases h
  have hfraction : afterFraction? (c :: rest) = none := by
    rw [afterFraction?, List.head?_cons, Option.any_some, hdigit]
    rfl
  have hbase : base (c :: rest) = (10, c :: rest) := by
    rw [base]
    all_goals
      intros
      next heq =>
        rw [(List.cons.inj heq).1] at hdigit
        cases hdigit
  rw [afterNumber?, hfraction, hbase]
  have hdigits : afterDigits? 10 true (c :: rest) = none := by
    rw [afterDigits?]
    split
    · rfl
    · split
      next digit hhex =>
        split
        next hlt =>
          rw [isDigit_of_hexDigit? hhex hlt] at hdigit
          cases hdigit
        next => rw [Bool.or_true, if_pos rfl]
      next => rfl
  change (afterDigits? 10 true (c :: rest)).bind afterSuffix? = none
  rw [hdigits]
  rfl

theorem leaf?_name {c : Char} (offset : Nat) (hstart : isIdentStart c = true)
    (hquoted : quotedLiteral? (c :: cs) = none) (hopens : opensLiteral (c :: cs) = false)
    {name tail : List Char} (hname : name? (c :: cs) = some (name, tail)) :
    leaf? offset (c :: cs) = some (.name offset (String.ofList name), tail) := by
  have hmark : mark? (c :: cs) = none := by
    rw [mark?.eq_def, startsMark_of_continue (isIdentContinue_of_start hstart)]
    rfl
  rw [leaf?, literal?, hquoted, afterNumber?_of_start hstart, hmark, hopens, hname]
  rfl

theorem leaf?_rawName {cs : List Char} (h : plainName? cs = some (cs, []))
    (hraw : String.ofList cs ∉ unrawNames) (htail : Follows tail) (offset : Nat) :
    leaf? offset ('r' :: '#' :: (cs ++ tail)) =
      some (.name offset (String.ofList ('r' :: '#' :: cs)), tail) := by
  obtain ⟨c, ds, rfl, hstart, -⟩ := plainName?_iff.1 h
  have hc : '"' ≠ c ∧ '#' ≠ c := by
    constructor <;> rintro rfl <;> cases hstart
  refine leaf?_name offset rfl ?_ ?_ ?_
  · have hfence : ('#' :: (c :: ds ++ tail)).takeWhile (· == '#') = ['#'] := by
      simp [hc.2.symm]
    rw [quotedLiteral?, raw?, hfence]
    dsimp only [List.length_singleton, List.drop_succ_cons, List.drop_zero]
    split
    next heq => exact absurd (List.cons.inj heq).1.symm hc.1
    next => rfl
  · simp [opensLiteral, literalOpenings, List.isPrefixOf, hc.1, hc.2]
  · rw [name?, plainName?_append h htail.ends]
    exact if_neg hraw

theorem leaf?_plainName {cs : List Char} (h : plainName? cs = some (cs, [])) (htail : Follows tail)
    (offset : Nat) : leaf? offset (cs ++ tail) = some (.name offset (String.ofList cs), tail) := by
  obtain ⟨c, ds, rfl, hstart, hds⟩ := plainName?_iff.1 h
  have hall : ∀ d ∈ c :: ds, isIdentContinue d = true := by
    intro d hd
    rcases List.mem_cons.1 hd with rfl | hd
    · exact isIdentContinue_of_start hstart
    · exact hds d hd
  have hquotes : ¬ Quotes (c :: (ds ++ tail)) := htail.not_quotes hall
  refine leaf?_name offset hstart ?_ ?_ ?_
  · by_contra hsome
    exact hquotes (quotes_of_quotedLiteral? hsome)
  · exact Bool.eq_false_iff.2 fun hopens => hquotes (quotes_of_opensLiteral hopens)
  · have hunraw : ∀ rest, c :: (ds ++ tail) ≠ 'r' :: '#' :: rest := by
      intro rest hrest
      rw [hrest] at hquotes
      exact hquotes ⟨'#', rfl, by decide⟩
    exact (name?_of_plain hunraw).trans (plainName?_append h htail.ends)

theorem IsName.cases {name : String} (h : IsName name) :
    plainName? name.toList = some (name.toList, []) ∨
      ∃ cs, name = String.ofList ('r' :: '#' :: cs) ∧ plainName? cs = some (cs, []) ∧
        String.ofList cs ∉ unrawNames := by
  by_cases hraw : ∃ rest, name.toList = 'r' :: '#' :: rest
  · obtain ⟨rest, hrest⟩ := hraw
    rw [IsName, hrest, name?] at h
    obtain ⟨⟨found, after⟩, hfound, h⟩ := Option.bind_eq_some_iff.1 h
    dsimp only at h
    split at h
    next => cases h
    next hunraw =>
      obtain ⟨⟨⟩, ⟨⟩⟩ := Prod.mk.inj (Option.some.inj h)
      exact .inr ⟨rest, by rw [← hrest, String.ofList_toList], hfound, hunraw⟩
  · rw [IsName, name?_of_plain fun rest hrest => hraw ⟨rest, hrest⟩] at h
    exact .inl h

theorem IsName.head {name : String} (h : IsName name) :
    ∃ c cs, name.toList = c :: cs ∧ isIdentStart c = true := by
  rcases h.cases with hplain | ⟨cs, rfl, -, -⟩
  · obtain ⟨c, ds, hcs, hstart, -⟩ := plainName?_iff.1 hplain
    exact ⟨c, ds, hcs, hstart⟩
  · exact ⟨'r', '#' :: cs, String.toList_ofList, rfl⟩

theorem IsName.point_not_mem {name : String} (h : IsName name) : '.' ∉ name.toList := by
  have hplain : ∀ {cs : List Char}, plainName? cs = some (cs, []) → '.' ∉ cs := by
    intro cs hcs hpoint
    obtain ⟨c, ds, rfl, hstart, hds⟩ := plainName?_iff.1 hcs
    rcases List.mem_cons.1 hpoint with rfl | hpoint
    · cases hstart
    · cases hds '.' hpoint
  rcases h.cases with hname | ⟨cs, rfl, hname, -⟩
  · exact hplain hname
  · simpa [String.toList_ofList] using hplain hname

theorem piece_name {name : String} (h : IsName name) (htail : Follows tail) :
    Piece name.toList tail fun tokens => ∃ offset, tokens = [.name offset name] := by
  obtain ⟨c, cs, hname, hstart⟩ := h.head
  have hcontinue := isIdentContinue_of_start hstart
  have hopens := Opens.of_continue hcontinue
  have hleaf : ∀ offset, leaf? offset (name.toList ++ tail) = some (.name offset name, tail) := by
    intro offset
    rcases h.cases with hplain | ⟨cs, rfl, hplain, hraw⟩
    · have hfound := leaf?_plainName hplain htail offset
      rwa [String.ofList_toList] at hfound
    · rw [String.toList_ofList]
      exact leaf?_rawName hplain hraw htail offset
  rw [hname] at hleaf ⊢
  exact Piece.leaf (hopens.starts _) (hopens.documentation? _) (bracket?_of_continue hcontinue)
    hleaf

/-! ### Literals -/

theorem take_front (cs tail : List Char) :
    (cs ++ tail).take ((cs ++ tail).length - tail.length) = cs := by
  rw [List.length_append, Nat.add_sub_cancel, List.take_left']
  rfl

theorem leaf?_literal (offset : Nat) {literal : Literal}
    (h : literal? (cs ++ tail) = some (literal, tail)) :
    leaf? offset (cs ++ tail) = some (.literal offset (String.ofList cs) literal, tail) := by
  rw [leaf?, h]
  dsimp only
  rw [take_front]

theorem quotedLiteral?_of_digit {c : Char} (h : c.isDigit = true) (rest : List Char) :
    quotedLiteral? (c :: rest) = none := by
  rw [quotedLiteral?]
  all_goals
    intros
    next heq =>
      rw [(List.cons.inj heq).1] at h
      cases h

theorem piece_number {c : Char} (hc : c.isDigit = true)
    (h : afterNumber? (c :: (cs ++ tail)) = some tail) :
    Piece (c :: cs) tail fun tokens => ∃ offset,
      tokens = [.literal offset (String.ofList (c :: cs)) (Literal.ofNumber (c :: cs))] := by
  have hcontinue := isIdentContinue_of_digit hc
  have hopens := Opens.of_continue hcontinue
  refine Piece.leaf (hopens.starts _) (hopens.documentation? _) (bracket?_of_continue hcontinue)
    fun offset => ?_
  have hliteral : literal? (c :: cs ++ tail) = some (Literal.ofNumber (c :: cs), tail) := by
    rw [literal?, List.cons_append, quotedLiteral?_of_digit hc, h]
    dsimp only
    rw [Option.map_some, ← List.cons_append, take_front]
  exact leaf?_literal offset hliteral

theorem piece_string (s : String) (htail : Follows tail) : Piece (quoted s).toList tail
    fun tokens => ∃ offset, tokens = [.literal offset (quoted s) (.text s)] := by
  have hopens : Opens '"' := ⟨by decide, by decide⟩
  rw [quoted, String.toList_ofList, Quoted.chars]
  refine Piece.leaf (hopens.starts _) (hopens.documentation? _) rfl fun offset => ?_
  have hliteral : literal? (Quoted.chars s.toList ++ tail) = some (.text s, tail) := by
    have hquoted : quotedLiteral? (Quoted.chars s.toList ++ tail) = some (.text s, tail) := by
      rw [Quoted.chars, List.cons_append, quotedLiteral?, List.append_assoc]
      change (cooked? .string (s.toList.flatMap Quoted.char ++ '"' :: tail)).map _ = _
      rw [cooked?_chars, Option.map_some]
      dsimp only
      rw [String.ofList_toList]
    have hplain : plainName? tail = none := by
      cases tail with
      | nil => rfl
      | cons c rest =>
        have hstart := isIdentStart_of_not_continue (htail.ends c rfl)
        rw [plainName?, hstart]
        rfl
    rw [literal?, hquoted]
    dsimp only
    rw [hplain]
    rfl
  exact leaf?_literal offset hliteral

/-! ### Marks -/

theorem documentation?_of_startsMark (h : startsMark cs = true) : documentation? cs = none := by
  rw [documentation?.eq_def]
  split <;> first | rfl | cases h

theorem starts_of_startsMark (h : startsMark cs = true) : Starts cs := by
  have hcomment : afterComment? cs = none := by
    rw [afterComment?.eq_def]
    split <;> first | rfl | cases h
  cases cs with
  | nil => cases h
  | cons c rest =>
    rw [Starts, skipBlanks, List.length_cons, skipBlanksWithin, hcomment]
    by_cases hc : c = '/'
    · rw [if_pos hc]
    · have hmark : isMark c = true := by
        rwa [startsMark] at h
        all_goals
          intros
          exact hc ‹_›
      have hmarks : "~!@#$%^&*-=+|;:,<.>/?'".toList.all (!isBlank ·) = true := by decide
      have hblank := List.all_eq_true.1 hmarks c (List.contains_iff_mem.1 hmark)
      rw [if_neg hc, Bool.not_eq_eq_eq_not.1 hblank]
      rfl

theorem piece_mark {c : Char} (hc : c ∈ ['.', ',', ':', '+', '-', '*', '/'])
    (hmark : startsMark (c :: tail) = true) :
    Piece [c] tail fun tokens => ∃ offset, tokens = [.mark offset c (startsMark tail)] := by
  have hliteral : literal? (c :: tail) = none := by
    simp only [List.mem_cons, List.not_mem_nil, or_false] at hc
    rcases hc with rfl | rfl | rfl | rfl | rfl | rfl | rfl <;> rfl
  have hbracket : bracket? c = none := by
    simp only [List.mem_cons, List.not_mem_nil, or_false] at hc
    rcases hc with rfl | rfl | rfl | rfl | rfl | rfl | rfl <;> rfl
  have hmarked : mark? (c :: tail) = some (c, startsMark tail, tail) := by
    rw [mark?.eq_def, if_pos hmark]
    simp only [List.mem_cons, List.not_mem_nil, or_false] at hc
    rcases hc with rfl | rfl | rfl | rfl | rfl | rfl | rfl <;> rfl
  refine Piece.leaf (starts_of_startsMark hmark) (documentation?_of_startsMark hmark) hbracket
    fun offset => ?_
  change leaf? offset (c :: tail) = _
  rw [leaf?, hliteral, hmarked]

/-! ### Whole texts -/

theorem lexeme?_byteOrderMark (offset : Nat) (rest : List Char) :
    lexeme? offset ('\ufeff' :: rest) = none := by
  have hopens : opensLiteral ('\ufeff' :: rest) = false := by
    simp [opensLiteral, literalOpenings, List.isPrefixOf]
  have hliteral : literal? ('\ufeff' :: rest) = none := by
    rw [literal?]
    rfl
  have hname : name? ('\ufeff' :: rest) = none := by
    have hstart : isIdentStart '\ufeff' = false := by decide +kernel
    rw [name?_of_plain fun rest heq => absurd (List.cons.inj heq).1 (by decide), plainName?, hstart]
    rfl
  have hleaf : leaf? offset ('\ufeff' :: rest) = none := by
    rw [leaf?, hliteral, hopens, hname]
    rfl
  rw [lexeme?.eq_def]
  dsimp only
  rw [hleaf]
  rfl

/-- A text that is cut into lexemes does not start with a byte order mark. -/
theorem Lexes.ne_byteOrderMark (h : Lexes total cs lexemes) : dropByteOrderMark cs = cs := by
  rw [dropByteOrderMark]
  rintro rest rfl
  obtain ⟨rounds, hrounds, h⟩ := h
  have hstarts : Starts ('\ufeff' :: rest) := Opens.starts ⟨by decide, by decide⟩ rest
  cases rounds with
  | zero =>
    rw [lexemesWithin.eq_def] at h
    dsimp only at h
    rw [hstarts] at h
    cases h
  | succ rounds =>
    rw [lexemesWithin_of_cons hstarts, lexeme?_byteOrderMark] at h
    cases h

theorem Piece.tokens? {p : List Token → Prop} (h : Piece cs [] p) :
    ∃ tokens, tokens? cs = some tokens ∧ p tokens := by
  obtain ⟨lexemes, tokens, hlexes, hnests, hp⟩ := h cs.length [] .nil
  rw [List.append_nil, List.append_nil] at hlexes
  have hmark := hlexes.ne_byteOrderMark
  obtain ⟨rounds, hrounds, hlexes⟩ := hlexes
  refine ⟨tokens, ?_, hp⟩
  have hnested := hnests [] [] []
  rw [List.append_nil, List.append_nil] at hnested
  rw [Source.tokens?, hmark, lexemesWithin_mono hrounds hlexes]
  change nest? [] [] lexemes = some tokens
  rw [hnested]
  simp [nest?]

end ObjectNavigation.Source
