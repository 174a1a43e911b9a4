import ObjectNavigation.Proofs.Source.Numeral
import ObjectNavigation.Proofs.Source.Spelling.Operand

/-!
Reading back the links of a chain. Each is read at once after its point, but for two positions in a
row, which look like a number and are taken apart.
-/

namespace ObjectNavigation.Source
open TokenParser

open Grammar

variable {t : Tree} {tokens rest : List Token} {g : Grammar}

/-! ### Links -/

/-- The tree with a link after it. -/
def linked (t : Tree) (link : Link) : Tree :=
  .node .chain (t.spread .chain ++ [some link.tree])

theorem foldl_linked {links : List Link} (hsome : links ≠ []) (hkind : t.kind ≠ .chain) :
    links.foldl linked t = .node .chain (some t :: links.map fun link => some link.tree) := by
  have hmore : ∀ (links : List Link) (slots : List (Option Tree)),
      links.foldl linked (.node .chain slots) =
        .node .chain (slots ++ links.map fun link => some link.tree) := by
    intro links
    induction links with
    | nil => simp
    | cons link links ih =>
      intro slots
      have hlinked : linked (.node .chain slots) link =
          .node .chain (slots ++ [some link.tree]) := rfl
      rw [List.foldl_cons, hlinked, ih, List.append_assoc]
      rfl
  cases links with
  | nil => exact absurd rfl hsome
  | cons link links =>
    rw [List.foldl_cons, linked, Tree.spread, if_neg hkind, hmore]
    rfl

/-- Tokens that spell links after an operand. -/
structure SpellsLinks (links : List Link) (tokens : List Token) : Prop where
  ends {rest : List Token} (h : EndsAccess rest) : EndsAccess (tokens ++ rest)
  reads {level start : Nat} {e : Expr} {t operand : Tree} {rest last : List Token}
    (hlevel : Token.listSize tokens ≤ level + 1) (hrest : EndsAccess rest) (he : e.Means t)
    (h : ∀ e : Expr, e.Means (links.foldl linked t) →
      Reads (trailers (within level) start e) rest last (·.Means operand)) :
    Reads (trailers (within level) start e) (tokens ++ rest) last (·.Means operand)

theorem SpellsLinks.nil : SpellsLinks [] [] :=
  ⟨id, fun _ _ he h => h _ he⟩

theorem SpellsLinks.append {links more : List Link} {others : List Token}
    (h : SpellsLinks links tokens) (hmore : SpellsLinks more others) :
    SpellsLinks (links ++ more) (tokens ++ others) where
  ends hrest := by
    rw [List.append_assoc]
    exact h.ends (hmore.ends hrest)
  reads hlevel hrest he hlast := by
    rw [Token.listSize_append] at hlevel
    rw [List.append_assoc]
    refine h.reads (by omega) (hmore.ends hrest) he fun e he => ?_
    refine hmore.reads (by omega) hrest he fun e he => hlast e ?_
    rwa [List.foldl_append]

theorem Leads.links {links : List Link} {others : List Token} (h : Leads t tokens)
    (hlinks : SpellsLinks links others) : Leads (links.foldl linked t) (tokens ++ others) where
  ne_nil := List.append_ne_nil_of_left_ne_nil h.ne_nil _
  reads hlevel hrest htrailers := by
    rw [Token.listSize_append] at hlevel
    rw [List.append_assoc]
    refine h.reads (by omega) (hlinks.ends hrest) fun start e he => ?_
    exact hlinks.reads (by omega) hrest he fun e he => htrailers start e he

theorem SpellsLinks.of_point {links : List Link} (offset : Nat)
    (h : ∀ level start e (t : Tree) rest, Token.listSize tokens ≤ level → EndsAccess rest →
      e.Means t → Reads (afterPoint (within level) start e) (tokens ++ rest) rest
        (·.Means (links.foldl linked t))) :
    SpellsLinks links (.mark offset '.' false :: tokens) where
  ends _ := endsAccess_point offset
  reads {level start e t operand rest last} hlevel hrest he hlast := by
    change 1 + Token.listSize tokens ≤ level + 1 at hlevel
    have hstep : Reads (trailer (within level) start e) (.mark offset '.' false :: (tokens ++ rest))
        rest fun result => ∃ e, result = .inl e ∧ e.Means (links.foldl linked t) := by
      refine Reads.ahead (Reads.otherwise rfl (Reads.chosen ?_ ?_))
      · rw [he.isRange]
        rfl
      · refine Reads.bind (Reads.discard (reads_mark rfl)) fun _ _ => ?_
        refine Reads.bind (h level start e t rest (by omega) hrest he) fun e he => ?_
        exact Reads.pure ⟨e, rfl, he⟩
    refine Reads.again ?_ hstep hlast
    simp only [List.length_cons, List.length_append]
    omega

theorem means_field {e : Expr} (he : e.Means t) (name : String) :
    (e.field name).Means (linked t (.property name)) := by
  rw [Expr.Means, Expr.normal?, he]
  rfl

theorem means_invoke {e : Expr} (he : e.Means t) (name : String) {es : List Expr}
    {trees : List Tree} (hes : Expr.normalAll? es = some trees) :
    (e.invoke name es).Means (linked t (.method name trees)) := by
  rw [Expr.Means, Expr.normal?, he, hes]
  rfl

theorem IsMember.ne {name word : String} (h : IsMember name) (hword : word ∈ reservedWords) :
    (name == word) = false :=
  beq_eq_false_iff_ne.2 fun heq => h.2 (heq ▸ hword)

theorem reads_afterPoint_name {name : String} (hname : IsMember name) (offset start : Nat)
    {e : Expr} {after : List Token} {p : Expr → Prop} (hcolons : Next.mark "::" after = false)
    (h : Reads (if Next.group .paren after then
        do return .invoke e name (← TokenParser.group .paren (items g.whole))
      else return .field e name) after rest p) :
    Reads (afterPoint g start e) (.name offset name :: after) rest p := by
  have hpositions : Reads positions? (.name offset name :: after) (.name offset name :: after)
      (· = ([], true)) := Reads.ahead (Reads.pure rfl)
  have hawait : Reads (TokenParser.word? "await") (.name offset name :: after)
      (.name offset name :: after) (· = false) :=
    Reads.ahead (Reads.otherwise (hname.ne (by decide)) (Reads.pure rfl))
  have hfree : Next.name (.name offset name :: after) = true := by simpa [Next.name] using hname.2
  have hmember : Reads member (.name offset name :: after) after (· = name) :=
    Reads.ahead (Reads.chosen hfree (reads_name offset hname.2))
  refine Reads.bind hpositions fun _ hfound => ?_
  subst hfound
  refine Reads.chosen rfl (Reads.bind hawait fun _ hawait => ?_)
  subst hawait
  refine Reads.otherwise rfl (Reads.ahead (Reads.bind hmember fun _ hmember => Reads.ahead ?_))
  subst hmember
  refine Reads.otherwise ?_ (Reads.ahead ?_)
  · rw [hcolons, Bool.and_false]
  · rw [hcolons, hfree, Bool.and_false, Bool.false_or, Bool.true_and]
    exact h

theorem spellsLinks_property {name : String} (hname : IsMember name) (point offset : Nat) :
    SpellsLinks [.property name] [.mark point '.' false, .name offset name] :=
  SpellsLinks.of_point point fun _ start _ _ _ _ hrest he =>
    reads_afterPoint_name hname offset start hrest.colons
      (Reads.otherwise hrest.paren (Reads.pure (means_field he name)))

theorem spellsLinks_method {name : String} (hname : IsMember name) {trees : List Tree}
    {content : List Token} (h : SpellsAll trees content) (point offset bracket : Nat) :
    SpellsLinks [.method name trees]
      [.mark point '.' false, .name offset name, .group bracket .paren content] := by
  refine SpellsLinks.of_point point fun level start e t rest hlevel hrest he => ?_
  change 1 + (1 + Token.listSize content + 0) ≤ level at hlevel
  obtain ⟨level, rfl⟩ : ∃ n, level = n + 1 := ⟨level - 1, by omega⟩
  refine reads_afterPoint_name hname offset start rfl (Reads.chosen rfl ?_)
  exact Reads.bind (reads_group (h.reads (by omega))) fun es hes =>
    Reads.pure (means_invoke he name hes)

theorem index?_toString {n : Nat} (h : n < Nat.pow 2 32) :
    index? (toString n).toList = some n := by
  rw [toList_digits]
  exact index?_toDigits h

theorem spellsLinks_position {n : Nat} (h : n < Nat.pow 2 32) (point offset : Nat) :
    SpellsLinks [.property (toString n)]
      [.mark point '.' false, .literal offset (toString n) (.int n)] := by
  refine SpellsLinks.of_point point fun level start e t rest _ hrest he => ?_
  have hpositions : Reads positions? (.literal offset (toString n) (.int n) :: rest)
      (.literal offset (toString n) (.int n) :: rest) (· = ([], true)) :=
    Reads.ahead (Reads.pure rfl)
  have hawait : Reads (TokenParser.word? "await") (.literal offset (toString n) (.int n) :: rest)
      (.literal offset (toString n) (.int n) :: rest) (· = false) :=
    Reads.ahead (Reads.otherwise rfl (Reads.pure rfl))
  have hmember : Reads member (.literal offset (toString n) (.int n) :: rest) rest
      (· = toString n) := by
    refine Reads.ahead (Reads.otherwise rfl (Reads.here fun _ => Reads.bind (reads_token _ _) ?_))
    rintro _ rfl
    dsimp only
    rw [index?_toString h]
    exact Reads.bind (reads_reprint _ _) fun _ _ => Reads.pure rfl
  refine Reads.bind hpositions fun _ hfound => ?_
  subst hfound
  refine Reads.chosen rfl (Reads.bind hawait fun _ hawait => ?_)
  subst hawait
  refine Reads.otherwise rfl (Reads.ahead (Reads.bind hmember fun _ hmember => Reads.ahead ?_))
  subst hmember
  exact Reads.otherwise rfl (Reads.ahead (Reads.otherwise rfl (Reads.pure (means_field he _))))

theorem toList_positions (m n : Nat) : (toString m ++ "." ++ toString n).toList =
    Nat.toDigits 10 m ++ '.' :: Nat.toDigits 10 n := by
  rw [String.toList_append, String.toList_append, toList_digits, toList_digits, List.append_assoc]
  rfl

theorem pointParts_positions (m n : Nat) :
    pointParts (toString m ++ "." ++ toString n).toList =
      [Nat.toDigits 10 m, Nat.toDigits 10 n] := by
  have hone : ∀ n : Nat, (Nat.toDigits 10 n).splitOn '.' = [Nat.toDigits 10 n] := by
    intro n
    refine List.splitOnP_eq_singleton fun c hc => beq_eq_false_iff_ne.2 ?_
    rintro rfl
    exact absurd (digits_toDigits n '.' hc) (by decide)
  rw [toList_positions, pointParts, List.splitOn_append_cons_self, hone, hone]
  exact if_neg fun h => Nat.toDigits_ne_nil (Option.some.inj h)

theorem spellsLinks_positions {m n : Nat} (hm : m < Nat.pow 2 32) (hn : n < Nat.pow 2 32)
    (point offset digits : Nat) (exponent : Int) :
    SpellsLinks [.property (toString m), .property (toString n)]
      [.mark point '.' false,
        .literal offset (toString m ++ "." ++ toString n) (.float digits exponent)] := by
  refine SpellsLinks.of_point point fun level start e t rest hlevel hrest he => ?_
  have hpositions : Reads positions?
      (.literal offset (toString m ++ "." ++ toString n) (.float digits exponent) :: rest) rest
      (· = ([m, n], false)) := by
    have hfound : (pointParts (toString m ++ "." ++ toString n).toList).mapM index? =
        some [m, n] := by
      rw [pointParts_positions]
      simp [index?_toDigits hm, index?_toDigits hn]
    have hmore : ((toString m ++ "." ++ toString n).toList.getLast? == some '.') = false := by
      obtain ⟨c, hlast⟩ : ∃ c, (Nat.toDigits 10 n).getLast? = some c :=
        Option.isSome_iff_exists.1 (List.getLast?_isSome.2 Nat.toDigits_ne_nil)
      have hdigit := digits_toDigits n c (List.mem_of_getLast? hlast)
      rw [toList_positions, List.getLast?_append, List.getLast?_cons, hlast]
      refine beq_eq_false_iff_ne.2 fun heq => ?_
      cases heq
      cases hdigit
    refine Reads.ahead ?_
    dsimp only [List.head?_cons]
    rw [hfound]
    refine Reads.here fun _ => Reads.bind (Reads.discard (reads_token _ _)) fun _ _ => ?_
    exact Reads.bind (reads_reprint _ _) fun _ _ => Reads.pure (by rw [hmore])
  refine Reads.bind hpositions fun _ hfound => ?_
  subst hfound
  exact Reads.otherwise rfl (Reads.pure (means_field (means_field he _) _))

end ObjectNavigation.Source
