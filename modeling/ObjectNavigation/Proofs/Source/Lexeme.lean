import Mathlib.Data.List.TakeWhile
import ObjectNavigation.Proofs.Source.Naming

/-!
The names in a source. Whatever the scanner takes for a name is one, taken by itself, and so is
every name in the tokens of a source; so the expression that the tokens spell is named.
-/

namespace ObjectNavigation.Source

theorem plainName?_whole {cs text rest : List Char} (h : plainName? cs = some (text, rest)) :
    plainName? text = some (text, []) := by
  cases cs with
  | nil => cases h
  | cons c cs =>
    rw [plainName?] at h
    split at h
    next hstart =>
      cases h
      have hall : ∀ d ∈ cs.takeWhile isIdentContinue, isIdentContinue d = true := fun d hd =>
        List.all_eq_true.1 List.all_takeWhile d hd
      rw [plainName?, if_pos hstart, List.takeWhile_eq_self_iff.2 hall,
        List.dropWhile_eq_nil_iff.2 hall]
    next => cases h

theorem name?_of_plain {cs : List Char} (h : ∀ rest, cs ≠ 'r' :: '#' :: rest) :
    name? cs = plainName? cs := by
  rw [name?]
  exact h

theorem name?_whole {cs text rest : List Char} (h : name? cs = some (text, rest)) :
    name? text = some (text, []) := by
  by_cases hraw : ∃ after, cs = 'r' :: '#' :: after
  · obtain ⟨after, rfl⟩ := hraw
    obtain ⟨⟨name, rest'⟩, hname, h⟩ := Option.bind_eq_some_iff.1 h
    dsimp only at h
    split at h
    next => cases h
    next hunraw =>
      cases h
      rw [name?, plainName?_whole hname]
      exact if_neg hunraw
  · rw [name?_of_plain fun after hafter => hraw ⟨after, hafter⟩] at h
    rw [name?_of_plain, plainName?_whole h]
    rintro after rfl
    cases cs with
    | nil => cases h
    | cons c cs =>
      rw [plainName?] at h
      split at h
      · obtain ⟨rfl, htext⟩ := List.cons.inj (Prod.mk.inj (Option.some.inj h)).1
        have hmark : isIdentContinue '#' = true := 
          List.all_eq_true.1 List.all_takeWhile '#' (htext ▸ List.mem_cons_self)
        cases hmark
      · cases h

/-! ### The names of a source -/

def Lexeme.Named : Lexeme → Prop
  | .token found => found.Named
  | _ => True

theorem named_leaf? {offset : Nat} {cs rest : List Char} {token : Token}
    (h : leaf? offset cs = some (token, rest)) : token.Named := by
  rw [leaf?] at h
  split at h
  · cases h
    trivial
  · split at h
    · cases h
      trivial
    · split at h
      · cases h
      · obtain ⟨⟨text, after⟩, hname, h⟩ := Option.map_eq_some_iff.1 h
        cases h
        rw [Token.Named, IsName, String.toList_ofList]
        exact name?_whole hname

theorem named_documentationTokens (offset : Nat) (inner : Bool) (text : List Char) :
    ∀ token ∈ documentationTokens offset inner text, token.Named := by
  have hdoc : IsName "doc" := by rw [IsName]; decide
  cases inner <;> simp [documentationTokens, Token.Named, Token.AllNamed, hdoc]

theorem named_lexeme? {offset : Nat} {cs rest : List Char} {found : List Lexeme}
    (h : lexeme? offset cs = some (found, rest)) : ∀ lexeme ∈ found, lexeme.Named := by
  rw [lexeme?.eq_def] at h
  split at h
  next inner text after hdoc =>
    split at h
    · cases h
      intro lexeme hlexeme
      obtain ⟨token, htoken, rfl⟩ := List.mem_map.1 hlexeme
      exact named_documentationTokens offset inner text token htoken
    · cases h
  next =>
    split at h
    next => cases h
    next c cs =>
      split at h
      · cases h
        simp [Lexeme.Named]
      · cases h
        simp [Lexeme.Named]
      · obtain ⟨⟨token, after⟩, hleaf, h⟩ := Option.map_eq_some_iff.1 h
        cases h
        intro lexeme hlexeme
        cases List.mem_singleton.1 hlexeme
        exact named_leaf? hleaf

theorem named_lexemesWithin {total rounds : Nat} {cs : List Char} {lexemes : List Lexeme}
    (h : lexemesWithin total rounds cs = some lexemes) : ∀ lexeme ∈ lexemes, lexeme.Named := by
  induction rounds generalizing cs lexemes with
  | zero =>
    rw [lexemesWithin] at h
    split at h
    · cases h
      nofun
    · cases h
  | succ rounds ih =>
    rw [lexemesWithin] at h
    split at h
    · cases h
      nofun
    · obtain ⟨⟨found, rest⟩, hfound, h⟩ := Option.bind_eq_some_iff.1 h
      obtain ⟨more, hmore, h⟩ := Option.bind_eq_some_iff.1 h
      cases h
      intro lexeme hlexeme
      rcases List.mem_append.1 hlexeme with hlexeme | hlexeme
      · exact named_lexeme? hfound lexeme hlexeme
      · exact ih hmore lexeme hlexeme

theorem Token.AllNamed.nil : Token.AllNamed [] := by
  rw [Token.AllNamed]
  trivial

theorem Token.AllNamed.cons {token : Token} {rest : List Token} (h : token.Named)
    (hrest : Token.AllNamed rest) : Token.AllNamed (token :: rest) := by
  rw [Token.AllNamed]
  exact ⟨h, hrest⟩

theorem allNamed_nest? {lexemes : List Lexeme} (h : ∀ lexeme ∈ lexemes, lexeme.Named)
    {outer : List (Nat × Delimiter × List Token)} {before tokens : List Token}
    (houter : ∀ opened ∈ outer, Token.AllNamed opened.2.2) (hbefore : Token.AllNamed before)
    (hnest : nest? outer before lexemes = some tokens) : Token.AllNamed tokens := by
  -- What has been read waits in reverse, in `before` and for each open group in `outer`.
  have hreverse : ∀ {tokens : List Token}, Token.AllNamed tokens → Token.AllNamed tokens.reverse :=
    fun h => Token.allNamed_iff.2 fun token htoken =>
      Token.allNamed_iff.1 h token (List.mem_reverse.1 htoken)
  induction lexemes generalizing outer before with
  | nil =>
    rw [nest?] at hnest
    split at hnest
    · cases hnest
      exact hreverse hbefore
    · cases hnest
  | cons lexeme lexemes ih =>
    have hrest : ∀ lexeme ∈ lexemes, lexeme.Named := fun lexeme hlexeme =>
      h lexeme (List.mem_cons_of_mem _ hlexeme)
    cases lexeme with
    | token token => exact ih hrest houter (.cons (h _ List.mem_cons_self) hbefore) hnest
    | opening offset delimiter =>
      refine ih hrest ?_ Token.AllNamed.nil hnest
      intro opened hopened
      rcases List.mem_cons.1 hopened with rfl | hopened
      · exact hbefore
      · exact houter opened hopened
    | closing delimiter =>
      cases outer with
      | nil => cases hnest
      | cons opened outer =>
        rw [nest?] at hnest
        split at hnest
        · refine ih hrest (fun opened hopened => houter opened (List.mem_cons_of_mem _ hopened)) ?_
            hnest
          exact .cons (hreverse hbefore) (houter _ List.mem_cons_self)
        · cases hnest

theorem allNamed_tokens? {cs : List Char} {tokens : List Token} (h : tokens? cs = some tokens) :
    Token.AllNamed tokens := by
  obtain ⟨lexemes, hlexemes, h⟩ := Option.bind_eq_some_iff.1 h
  exact allNamed_nest? (named_lexemesWithin hlexemes)
    (fun opened hopened => absurd hopened List.not_mem_nil) .nil h

theorem named_expression? {tokens : List Token} {e : Expr} (htokens : Token.AllNamed tokens)
    (h : expression? tokens = some e) : e.Named := by
  obtain ⟨⟨found, after⟩, hrun, h⟩ := Option.bind_eq_some_iff.1 h
  dsimp only at h
  split at h
  · cases h
    exact (Grammar.names_within _).expression true _ htokens _ _ hrun
  · cases h

end ObjectNavigation.Source
