import ObjectNavigation.Source.Lexeme
import ObjectNavigation.Source.Cursor

/-!
Reasoning about parsers, step by step along their text. `Reads` says that a parser succeeds on some
tokens and where it stops; `Yields` says what its results are like if it succeeds, provided that all
names among the tokens are names.
-/

namespace ObjectNavigation.Source

def IsName (text : String) : Prop :=
  name? text.toList = some (text.toList, [])

instance (text : String) : Decidable (IsName text) :=
  inferInstanceAs (Decidable (_ = _))

namespace Token

mutual

def Named : Token → Prop
  | name _ text => IsName text
  | mark _ _ _ => True
  | literal _ _ _ => True
  | group _ _ content => AllNamed content

def AllNamed : List Token → Prop
  | [] => True
  | token :: rest => token.Named ∧ AllNamed rest

end

theorem allNamed_iff {tokens : List Token} : AllNamed tokens ↔ ∀ token ∈ tokens, token.Named := by
  induction tokens with
  | nil => simp [AllNamed]
  | cons token rest ih => simp [AllNamed, ih]

theorem AllNamed.suffix {tokens rest : List Token} (h : AllNamed tokens) (hrest : rest <:+ tokens) :
    AllNamed rest :=
  allNamed_iff.2 fun token htoken => allNamed_iff.1 h token (hrest.mem htoken)

end Token

namespace TokenParser

variable {α β σ : Type} {parser : TokenParser α} {next : α → TokenParser β}

/-! ### What a parser reads -/

/-- Whether a parser reads the tokens up to `rest`, with a result of this kind, whatever has been
read before. -/
def Reads (parser : TokenParser α) (tokens rest : List Token) (p : α → Prop) : Prop :=
  ∀ printed, ∃ a copy, parser.run ⟨tokens, printed⟩ = some (a, ⟨rest, copy⟩) ∧ p a

section Reads
variable {tokens mid rest : List Token} {p : β → Prop} {q : α → Prop}

theorem Reads.pure {a : α} (h : q a) : Reads (Pure.pure a) tokens tokens q :=
  fun printed => ⟨a, printed, rfl, h⟩

theorem Reads.bind (h : Reads parser tokens mid q)
    (hnext : ∀ a, q a → Reads (next a) mid rest p) : Reads (parser >>= next) tokens rest p := by
  intro printed
  obtain ⟨a, copy, hparser, ha⟩ := h printed
  obtain ⟨b, last, hb, hp⟩ := hnext a ha copy
  refine ⟨b, last, ?_, hp⟩
  change (parser.run ⟨tokens, printed⟩).bind (fun found => (next found.1).run found.2) = _
  rw [hparser]
  exact hb

theorem Reads.mono {q' : α → Prop} (h : Reads parser tokens rest q) (hq : ∀ a, q a → q' a) :
    Reads parser tokens rest q' := by
  intro printed
  obtain ⟨a, copy, hrun, ha⟩ := h printed
  exact ⟨a, copy, hrun, hq a ha⟩

theorem Reads.discard (h : Reads parser tokens rest q) :
    Reads (Functor.discard parser) tokens rest (fun _ => True) :=
  Reads.bind h fun _ _ => Reads.pure trivial

theorem Reads.ahead {next : List Token → TokenParser β} (h : Reads (next tokens) tokens rest p) :
    Reads (ahead >>= next) tokens rest p :=
  fun printed => h printed

theorem Reads.second {next : List Token → TokenParser β}
    (h : Reads (next (skipToken tokens)) tokens rest p) : Reads (second >>= next) tokens rest p :=
  fun printed => h printed

theorem Reads.third {next : List Token → TokenParser β}
    (h : Reads (next (skipToken (skipToken tokens))) tokens rest p) :
    Reads (third >>= next) tokens rest p :=
  fun printed => h printed

theorem Reads.here {next : Nat → TokenParser β} (h : ∀ start, Reads (next start) tokens rest p) :
    Reads (here >>= next) tokens rest p :=
  fun printed => h printed.length printed

theorem Reads.since {start : Nat} {next : List Token → TokenParser β}
    (h : ∀ read, Reads (next read) tokens rest p) : Reads (since start >>= next) tokens rest p :=
  fun printed => h _ printed

theorem Reads.require {condition : Bool} (h : condition = true)
    {next : Unit → TokenParser β} (hnext : Reads (next ()) tokens rest p) :
    Reads (require condition >>= next) tokens rest p := by
  subst h
  exact hnext

theorem Reads.atEnd {next : Bool → TokenParser β} (h : Reads (next tokens.isEmpty) tokens rest p) :
    Reads (atEnd >>= next) tokens rest p :=
  fun printed => h printed

theorem reads_token (token : Token) (rest : List Token) :
    Reads TokenParser.token (token :: rest) rest (· = token) :=
  fun printed => ⟨token, token :: printed, rfl, rfl⟩

theorem reads_mark {text : String} {offset : Nat}
    (h : takeMarks? text.toList tokens = some (offset, rest)) :
    Reads (TokenParser.mark text) tokens rest (fun _ => True) := by
  intro printed
  refine ⟨offset, (marks offset text.toList).reverse ++ printed, ?_, trivial⟩
  change (takeMarks? text.toList tokens).map _ = _
  rw [h]
  rfl

theorem reads_reprint (start : Nat) (copy : List Token) :
    Reads (reprint start copy) tokens tokens (fun _ => True) :=
  fun printed => ⟨(), copy.reverse ++ printed.drop (printed.length - start), rfl, trivial⟩

theorem reads_group {delimiter : Delimiter} {offset : Nat} {content : List Token}
    (h : Reads parser content [] q) :
    Reads (TokenParser.group delimiter parser) (.group offset delimiter content :: rest) rest
      q := by
  intro printed
  obtain ⟨a, copy, hrun, ha⟩ := h []
  refine ⟨a, .group offset delimiter copy.reverse :: printed, ?_, ha⟩
  dsimp only [TokenParser.group]
  rw [if_pos rfl, hrun]

theorem iterate_mono {step : σ → TokenParser (σ ⊕ α)} {few many : Nat} (h : few ≤ many) {s : σ}
    {c : Cursor} {found : α × Cursor} (hrun : (iterate step few s).run c = some found) :
    (iterate step many s).run c = some found := by
  induction few generalizing many s c with
  | zero => cases hrun
  | succ few ih =>
    obtain ⟨many, rfl⟩ : ∃ n, many = n + 1 := ⟨many - 1, by omega⟩
    obtain ⟨⟨result, between⟩, hstep, hrun⟩ := Option.bind_eq_some_iff.1 hrun
    refine Option.bind_eq_some_iff.2 ⟨⟨result, between⟩, hstep, ?_⟩
    cases result with
    | inl s => exact ih (Nat.le_of_succ_le_succ h) hrun
    | inr a => exact hrun

variable {step : σ → TokenParser (σ ⊕ α)} {s : σ}

theorem Reads.last (h : Reads (step s) tokens rest fun result => ∃ a, result = .inr a ∧ q a) :
    Reads (untilDone step s) tokens rest q := by
  refine Reads.ahead (Reads.bind h fun result hresult => ?_)
  obtain ⟨a, rfl, ha⟩ := hresult
  exact Reads.pure ha

theorem Reads.again {r : σ → Prop} (hshort : mid.length < tokens.length)
    (h : Reads (step s) tokens mid fun result => ∃ s, result = .inl s ∧ r s)
    (hrest : ∀ s, r s → Reads (untilDone step s) mid rest q) :
    Reads (untilDone step s) tokens rest q := by
  refine Reads.ahead (Reads.bind h fun result hresult => ?_)
  obtain ⟨s, rfl, hs⟩ := hresult
  intro printed
  obtain ⟨a, copy, hrun, ha⟩ := hrest s hs printed
  exact ⟨a, copy, iterate_mono hshort hrun, ha⟩

theorem Reads.chosen {condition : Bool} {first second : TokenParser α} (h : condition = true)
    (hfirst : Reads first tokens rest q) :
    Reads (if condition then first else second) tokens rest q := by
  rwa [if_pos h]

theorem Reads.otherwise {condition : Bool} {first second : TokenParser α} (h : condition = false)
    (hsecond : Reads second tokens rest q) :
    Reads (if condition then first else second) tokens rest q := by
  rwa [if_neg (Bool.eq_false_iff.1 h)]

end Reads

/-! ### What a parser yields -/

/-- Whether a parser, if it succeeds at a place, has a result of this kind. -/
def Yields (parser : TokenParser α) (c : Cursor) (p : α → Prop) : Prop :=
  ∀ a after, parser.run c = some (a, after) → p a

section Yields
variable {c : Cursor} {p : β → Prop} {q : α → Prop}

theorem Yields.any : Yields parser c fun _ => True :=
  fun _ _ _ => trivial

theorem Yields.pure {a : α} (h : q a) : Yields (Pure.pure a) c q := by
  rintro _ _ ⟨⟩
  exact h

theorem Yields.mono {q' : α → Prop} (h : Yields parser c q) (hq : ∀ a, q a → q' a) :
    Yields parser c q' :=
  fun a after hrun => hq a (h a after hrun)

theorem Yields.bind (hc : Token.AllNamed c.rest) (h : Yields parser c q)
    (hnext : ∀ a after, Token.AllNamed after.rest → q a → Yields (next a) after p) :
    Yields (parser >>= next) c p := by
  intro b last hrun
  obtain ⟨⟨a, after⟩, hparser, hrun⟩ := Option.bind_eq_some_iff.1 hrun
  exact hnext a after (hc.suffix (parser.suffix hparser)) (h a after hparser) b last hrun

/-- The result of the first parser does not matter. -/
theorem Yields.skip (hc : Token.AllNamed c.rest)
    (hnext : ∀ a after, Token.AllNamed after.rest → Yields (next a) after p) :
    Yields (parser >>= next) c p :=
  Yields.bind hc Yields.any fun a after hafter _ => hnext a after hafter

theorem Yields.ahead {next : List Token → TokenParser β} (h : Yields (next c.rest) c p) :
    Yields (ahead >>= next) c p :=
  h

theorem Yields.ite {condition : Prop} [Decidable condition] {first second : TokenParser α}
    (hfirst : condition → Yields first c q) (hsecond : ¬ condition → Yields second c q) :
    Yields (if condition then first else second) c q := by
  split
  · exact hfirst ‹_›
  · exact hsecond ‹_›

theorem Yields.failure : Yields (failure : TokenParser α) c q :=
  nofun

theorem yields_group {delimiter : Delimiter} (hc : Token.AllNamed c.rest)
    (h : ∀ c, Token.AllNamed c.rest → Yields parser c q) :
    Yields (TokenParser.group delimiter parser) c q := by
  intro a after hrun
  dsimp only [TokenParser.group] at hrun
  split at hrun
  · split at hrun
    · split at hrun
      next hcontent =>
        cases hrun
        exact h ⟨_, []⟩ hc.1 _ _ hcontent
      next => cases hrun
    · cases hrun
  · cases hrun

theorem yields_untilDone {step : σ → TokenParser (σ ⊕ α)} {r : σ → Prop} {s : σ}
    (hc : Token.AllNamed c.rest) (hs : r s)
    (h : ∀ s c, r s → Token.AllNamed c.rest → Yields (step s) c (Sum.elim r q)) :
    Yields (untilDone step s) c q := by
  have hrounds : ∀ rounds s c, r s → Token.AllNamed c.rest →
      Yields (iterate step rounds s) c q := by
    intro rounds
    induction rounds with
    | zero => exact fun _ _ _ _ => Yields.failure
    | succ rounds ih =>
      intro s c hs hc
      refine Yields.bind hc (h s c hs hc) fun result after hafter hresult => ?_
      cases result with
      | inl s => exact ih s after hresult hafter
      | inr a => exact Yields.pure hresult
  exact Yields.ahead (hrounds _ s c hs hc)

end Yields
end TokenParser
end ObjectNavigation.Source
