import ObjectNavigation.Proofs.Source.Decimal
import ObjectNavigation.Proofs.Source.Piece
import ObjectNavigation.Proofs.Source.Spelling.Access
import ObjectNavigation.Proofs.Source.Spelling.Joined

/-!
The texts of trees, piece by piece. `Renders` says what tokens the text of a tree has in each of the
three places where it may stand: at the beginning of an operand, where links can follow; as an
operand; and as a whole. Two positions in a row are one number to the lexer, and one position after
a whole number would be a part of it.
-/

namespace ObjectNavigation

namespace Tree

/-- The text of a tree inside another, where an operator is put in parentheses. -/
def operandText (heap : Heap) (t : Tree) : String :=
  if t.kind.isOperator then "(" ++ t.text heap ++ ")" else t.text heap

theorem operandTexts_map (heap : Heap) (trees : List Tree) :
    operandTexts heap (trees.map some) = trees.map (operandText heap) := by
  induction trees with
  | nil => rfl
  | cons t trees ih => rw [List.map_cons, operandTexts, ih]; rfl

end Tree

namespace Source

variable {heap : Heap} {t : Tree} {cs tail : List Char}

/-- What may follow an operand. -/
def Closes (tail : List Char) : Prop :=
  ∀ c ∈ tail.head?, c ∈ [' ', ')', ']', ',']

theorem Closes.follows (h : Closes tail) : Follows tail := by
  intro c hc
  have hmem := h c hc
  simp only [List.mem_cons, List.not_mem_nil, or_false] at hmem ⊢
  rcases hmem with h | h | h | h <;> simp [h]

theorem Closes.endsWhole (h : Closes tail) : EndsWhole tail := by
  refine ⟨h.follows.ends, ?_⟩
  rintro rest rfl
  exact absurd (h '.' rfl) (by decide)

/-- The text of a tree is read back, as far as what surrounds it allows. -/
structure Renders (heap : Heap) (t : Tree) : Prop where
  head (hnegate : t.kind ≠ .negate) (hchain : t.kind ≠ .chain) {tail : List Char}
    (htail : Follows tail) (hwhole : ∀ n, t.body = .const (.int n) → EndsWhole tail) :
    Piece (t.operandText heap).toList tail (Leads t)
  operand {tail : List Char} (htail : Closes tail) :
    Piece (t.operandText heap).toList tail (SpellsOperand t)
  whole {tail : List Char} (htail : Closes tail) : Piece (t.text heap).toList tail (Spells t)

theorem Renders.of_head (hkind : t.kind.isOperator = false)
    (h : ∀ tail, Follows tail → (∀ n, t.body = .const (.int n) → EndsWhole tail) →
      Piece (t.text heap).toList tail (Leads t)) : Renders heap t := by
  have htext : t.operandText heap = t.text heap := by
    rw [Tree.operandText, hkind]
    rfl
  refine ⟨fun _ _ tail htail hwhole => ?_, fun htail => ?_, fun htail => ?_⟩
  · rw [htext]
    exact h tail htail hwhole
  · rw [htext]
    exact (h _ htail.follows fun _ _ => htail.endsWhole).mono fun _ hleads => hleads.operand
  · exact (h _ htail.follows fun _ _ => htail.endsWhole).mono fun _ hleads => hleads.operand.whole

theorem Renders.of_operand (hkind : t.kind = .negate ∨ t.kind = .chain)
    (h : ∀ tail, Closes tail → Piece (t.text heap).toList tail (SpellsOperand t)) :
    Renders heap t := by
  have htext : t.operandText heap = t.text heap := by
    rw [Tree.operandText]
    rcases hkind with hkind | hkind <;> rw [hkind] <;> rfl
  refine ⟨fun hnegate hchain => ?_, fun htail => ?_, fun htail => ?_⟩
  · rcases hkind with hkind | hkind
    · exact absurd hkind hnegate
    · exact absurd hkind hchain
  · rw [htext]
    exact h _ htail
  · exact (h _ htail).mono fun _ hspells => hspells.whole

theorem closes_paren (tail : List Char) : Closes (')' :: tail) := by
  rintro c ⟨⟩
  decide

theorem closes_bracket (tail : List Char) : Closes (']' :: tail) := by
  rintro c ⟨⟩
  decide

theorem closes_blank (tail : List Char) : Closes (' ' :: tail) := by
  rintro c ⟨⟩
  decide

theorem closes_comma (tail : List Char) : Closes (',' :: tail) := by
  rintro c ⟨⟩
  decide

theorem piece_paren {p : List Token → Prop} (h : Piece cs (')' :: tail) p) :
    Piece ('(' :: (cs ++ [')'])) tail fun tokens =>
      ∃ offset content, tokens = [.group offset .paren content] ∧ p content :=
  Piece.group ⟨by decide, by decide⟩ ⟨by decide, by decide⟩ rfl rfl h

theorem piece_bracket {p : List Token → Prop} (h : Piece cs (']' :: tail) p) :
    Piece ('[' :: (cs ++ [']'])) tail fun tokens =>
      ∃ offset content, tokens = [.group offset .bracket content] ∧ p content :=
  Piece.group ⟨by decide, by decide⟩ ⟨by decide, by decide⟩ rfl rfl h

theorem Renders.of_whole (hkind : t.kind.isOperator = true)
    (h : ∀ tail, Closes tail → Piece (t.text heap).toList tail (Spells t)) : Renders heap t := by
  have htext : (t.operandText heap).toList = '(' :: ((t.text heap).toList ++ [')']) := by
    rw [Tree.operandText, hkind, if_pos rfl, String.toList_append, String.toList_append]
    rfl
  have hparen : ∀ tail, Piece (t.operandText heap).toList tail (Leads t) := by
    intro tail
    rw [htext]
    refine (piece_paren (h _ (closes_paren tail))).mono ?_
    rintro _ ⟨offset, content, rfl, hspells⟩
    exact hspells.paren offset
  exact ⟨fun _ _ tail _ _ => hparen tail,
    fun _ => (hparen _).mono fun _ hleads => hleads.operand, fun htail => h _ htail⟩

/-! ### Lists -/

/-- A mark that no other mark follows directly. -/
theorem piece_lone {c : Char} (hc : c ∈ ['.', ',', ':', '+', '-', '*', '/'])
    (hmark : startsMark (c :: tail) = true) (hlone : startsMark tail = false) :
    Piece [c] tail fun tokens => ∃ offset, tokens = [.mark offset c false] :=
  hlone ▸ piece_mark hc hmark

theorem piece_blank (tail : List Char) : Piece [' '] tail (· = []) :=
  Piece.blank rfl

theorem piece_items {trees : List Tree} (h : ∀ t ∈ trees, Renders heap t) (htail : Closes tail) :
    Piece (", ".intercalate (trees.map (Tree.operandText heap))).toList tail (SpellsAll trees) := by
  induction trees with
  | nil => exact Piece.nil .nil
  | cons t trees ih =>
    have ht := h t List.mem_cons_self
    have hrest := ih fun u hu => h u (List.mem_cons_of_mem t hu)
    cases trees with
    | nil =>
      rw [List.map_singleton, String.intercalate_singleton]
      exact (ht.operand htail).mono fun _ hspells => .one hspells.whole
    | cons u trees =>
      have htext : (", ".intercalate ((t :: u :: trees).map (Tree.operandText heap))).toList =
          (t.operandText heap).toList ++ ([','] ++ ([' '] ++
            (", ".intercalate ((u :: trees).map (Tree.operandText heap))).toList)) := by
        simp [String.intercalate_cons_cons]
      have hcomma : ∀ tail, Piece [','] (' ' :: tail) fun tokens =>
          ∃ offset, tokens = [.mark offset ',' false] :=
        fun _ => piece_lone (by decide) rfl rfl
      rw [htext]
      refine ((ht.operand (closes_comma _)).append
        ((hcomma _).append ((piece_blank _).append hrest))).mono ?_
      rintro _ ⟨first, _, rfl, hfirst, _, _, rfl, ⟨offset, rfl⟩, _, rest, rfl, rfl, hrest⟩
      exact .more hfirst.whole offset hrest

/-! ### Operators -/

theorem piece_operands {op : Operation} {trees : List Tree} (h : ∀ t ∈ trees, Renders heap t)
    (htail : Closes tail) :
    Piece (trees.flatMap fun t => [' '] ++ ([sign op] ++ ([' '] ++ (t.operandText heap).toList)))
      tail (SpellsOperands op trees) := by
  induction trees with
  | nil => exact Piece.nil .nil
  | cons t trees ih =>
    have hrest := ih fun u hu => h u (List.mem_cons_of_mem t hu)
    have hcloses : Closes ((trees.flatMap fun t =>
        [' '] ++ ([sign op] ++ ([' '] ++ (t.operandText heap).toList))) ++ tail) := by
      cases trees with
      | nil => exact htail
      | cons u trees => exact closes_blank _
    have hsign : ∀ tail, Piece [sign op] (' ' :: tail) fun tokens =>
        ∃ offset, tokens = [.mark offset (sign op) false] := by
      intro tail
      cases op <;> exact piece_lone (by decide) rfl rfl
    rw [List.flatMap_cons]
    refine (((piece_blank _).append ((hsign _).append ((piece_blank _).append
      ((h t List.mem_cons_self).operand hcloses)))).append hrest).mono ?_
    rintro _ ⟨_, rest, rfl, ⟨_, _, rfl, rfl, _, _, rfl, ⟨offset, rfl⟩, _, tokens, rfl, rfl, ht⟩,
      hrest⟩
    exact .cons ht offset hrest

/-! ### Paths -/

theorem follows_cons {c : Char} (hc : c ∈ [' ', ')', ']', ',', '.', '(', ':']) (tail : List Char) :
    Follows (c :: tail) := by
  rintro _ ⟨⟩
  exact hc

theorem toList_intercalate_cons (separator text : String) (texts : List String) :
    (separator.intercalate (text :: texts)).toList =
      text.toList ++ texts.flatMap fun next => separator.toList ++ next.toList := by
  induction texts generalizing text with
  | nil => simp
  | cons next texts ih =>
    rw [String.intercalate_cons_cons, String.toList_append, String.toList_append, ih]
    simp

theorem startsMark_name {name : String} (h : IsName name) (rest : List Char) :
    startsMark (name.toList ++ rest) = false := by
  obtain ⟨c, cs, hname, hstart⟩ := h.head
  rw [hname]
  exact startsMark_of_continue (isIdentContinue_of_start hstart) _

theorem piece_path {names : List String} (hsome : names ≠ [])
    (h : ∀ name ∈ names, IsSegment name) (htail : Follows tail) :
    Piece ("::".intercalate names).toList tail (SpellsPath names) := by
  induction names with
  | nil => exact absurd rfl hsome
  | cons name names ih =>
    have hname := h name List.mem_cons_self
    cases names with
    | nil =>
      rw [String.intercalate_singleton]
      refine (piece_name hname.1 htail).mono ?_
      rintro _ ⟨offset, rfl⟩
      exact .one offset hname
    | cons next names =>
      have hrest := ih nofun fun name hmem => h name (List.mem_cons_of_mem _ hmem)
      have htext : ("::".intercalate (name :: next :: names)).toList =
          name.toList ++ ([':'] ++ ([':'] ++ ("::".intercalate (next :: names)).toList)) := by
        simp [String.intercalate_cons_cons]
      have hjoint : ∀ tail, Piece [':'] (':' :: tail) fun tokens =>
          ∃ offset, tokens = [.mark offset ':' true] := fun tail =>
        piece_mark (by decide) rfl
      have hlone : Piece [':'] (("::".intercalate (next :: names)).toList ++ tail) fun tokens =>
          ∃ offset, tokens = [.mark offset ':' false] := by
        refine piece_lone (by decide) rfl ?_
        rw [toList_intercalate_cons, List.append_assoc]
        exact startsMark_name (h next (by simp)).1 _
      rw [htext]
      refine ((piece_name hname.1 (follows_cons (by decide) _)).append
        ((hjoint _).append (hlone.append hrest))).mono ?_
      rintro _ ⟨_, _, rfl, ⟨offset, rfl⟩, _, _, rfl, ⟨first, rfl⟩, _, tokens, rfl, ⟨second, rfl⟩,
        hnames⟩
      exact .more offset first second hname hnames

/-- The text of arguments in parentheses. -/
def argumentsText (heap : Heap) (trees : List Tree) : List Char :=
  '(' :: ((", ".intercalate (trees.map (Tree.operandText heap))).toList ++ [')'])

theorem text_method (heap : Heap) (name : String) (trees : List Tree) :
    ((Tree.node (.method name) (trees.map some)).text heap).toList =
      name.toList ++ argumentsText heap trees := by
  rw [Tree.text, Tree.operandTexts_map, argumentsText]
  simp [Tree.layout]

theorem piece_call {p : List Token → Prop} (hcs : ∀ tail, Piece cs ('(' :: tail) p)
    {trees : List Tree} (h : ∀ t ∈ trees, Renders heap t) :
    Piece (cs ++ argumentsText heap trees) tail fun tokens =>
      ∃ path offset content, tokens = path ++ [.group offset .paren content] ∧ p path ∧
        SpellsAll trees content := by
  refine ((hcs _).append (piece_paren (piece_items h (closes_paren tail)))).mono ?_
  rintro _ ⟨path, _, rfl, hpath, offset, content, rfl, hcontent⟩
  exact ⟨path, offset, content, rfl, hpath, hcontent⟩

/-! ### Links -/

/-- The text of links, each with the point before it. -/
def linksText (heap : Heap) (links : List Link) : List Char :=
  links.flatMap fun link => '.' :: (link.tree.text heap).toList

theorem linksText_cons (heap : Heap) (link : Link) (links : List Link) :
    linksText heap (link :: links) =
      ['.'] ++ ((link.tree.text heap).toList ++ linksText heap links) :=
  rfl

theorem follows_links {links : List Link} (htail : Closes tail) :
    Follows (linksText heap links ++ tail) := by
  cases links with
  | nil => exact htail.follows
  | cons link links => exact follows_cons (by decide) _

theorem toDigits_cons (n : Nat) : ∃ c cs, Nat.toDigits 10 n = c :: cs ∧ c.isDigit = true := by
  obtain ⟨c, cs, hcs⟩ := List.exists_cons_of_ne_nil (Nat.toDigits_ne_nil : Nat.toDigits 10 n ≠ [])
  exact ⟨c, cs, hcs, digits_toDigits n c (hcs ▸ List.mem_cons_self)⟩

theorem startsMark_digits (n : Nat) (rest : List Char) :
    startsMark (Nat.toDigits 10 n ++ rest) = false := by
  obtain ⟨c, cs, hcs, hc⟩ := toDigits_cons n
  rw [hcs]
  exact startsMark_of_continue (isIdentContinue_of_digit hc) _

theorem piece_whole (n : Nat) (htail : EndsWhole tail) :
    Piece (Nat.toDigits 10 n) tail fun tokens => ∃ offset,
      tokens = [.literal offset (toString n) (.int n)] := by
  obtain ⟨c, cs, hcs, hc⟩ := toDigits_cons n
  have hafter := afterNumber?_whole (digits_toDigits n) Nat.toDigits_ne_nil htail
  have htext : String.ofList (Nat.toDigits 10 n) = toString n := by
    rw [← toList_digits, String.ofList_toList]
  have hvalue := ofNumber_toDigits n
  rw [hcs] at hafter htext hvalue ⊢
  rw [← htext, ← hvalue]
  exact piece_number hc hafter

/-- Two positions in a row are one literal. -/
theorem piece_positions (m n : Nat) (htail : Ends tail) :
    Piece (Nat.toDigits 10 m ++ '.' :: Nat.toDigits 10 n) tail fun tokens =>
      ∃ offset digits exponent, tokens =
        [.literal offset (toString m ++ "." ++ toString n) (.float digits exponent)] := by
  obtain ⟨c, cs, hcs, hc⟩ := toDigits_cons m
  have hlong : Nat.toDigits 10 n ≠ [] ∨ (none : Option Int) ≠ none := Or.inl Nat.toDigits_ne_nil
  have hplaces : fractionText (Nat.toDigits 10 n) none = '.' :: Nat.toDigits 10 n := by
    simp [fractionText, exponentText, Nat.toDigits_ne_nil]
  have hafter := afterNumber?_fraction (digits_toDigits m) Nat.toDigits_ne_nil (digits_toDigits n)
    hlong htail
  have hvalue := ofNumber_fraction (digits_toDigits m) Nat.toDigits_ne_nil (digits_toDigits n) hlong
  have htext : String.ofList (Nat.toDigits 10 m ++ '.' :: Nat.toDigits 10 n) =
      toString m ++ "." ++ toString n := by
    rw [← toList_positions, String.ofList_toList]
  rw [hplaces, hcs, List.cons_append] at hafter hvalue
  rw [hcs, List.cons_append] at htext ⊢
  refine (piece_number hc hafter).mono ?_
  rintro _ ⟨offset, rfl⟩
  rw [htext, hvalue]
  exact ⟨offset, _, _, rfl⟩

def Link.name : Link → String
  | .property name => name
  | .method name _ => name

theorem Link.text_head (heap : Heap) (link : Link) :
    ∃ more, (link.tree.text heap).toList = link.name.toList ++ more := by
  cases link with
  | property name => exact ⟨[], (List.append_nil _).symm⟩
  | method name arguments => exact ⟨argumentsText heap arguments, text_method heap name arguments⟩

theorem endsWhole_links {links : List Link} (h : ∀ link ∈ links.head?, IsMember link.name)
    (htail : Closes tail) : EndsWhole (linksText heap links ++ tail) := by
  cases links with
  | nil => exact htail.endsWhole
  | cons link links =>
    refine ⟨(follows_cons (by decide) _).ends, ?_⟩
    rintro rest hrest
    obtain ⟨more, hmore⟩ := link.text_head heap
    obtain ⟨c, cs, hname, hstart⟩ := (h link rfl).1.head
    rw [← (List.cons.inj hrest).2, hmore, hname]
    exact ⟨c, rfl, hstart⟩

section Links
variable {links : List Link} (htail : Closes tail)
  (hlinks : Piece (linksText heap links) tail (SpellsLinks links))
include htail hlinks

omit htail in
/-- Links that are written by a point and a piece after it. -/
theorem piece_point (first : List Link) {cs : List Char} {p : List Token → Prop}
    (htext : linksText heap (first ++ links) = '.' :: (cs ++ linksText heap links))
    (hstarts : startsMark (cs ++ linksText heap links ++ tail) = false)
    (hpiece : Piece cs (linksText heap links ++ tail) p)
    (spells : ∀ point tokens, p tokens → SpellsLinks first (.mark point '.' false :: tokens)) :
    Piece (linksText heap (first ++ links)) tail (SpellsLinks (first ++ links)) := by
  have hpoint : Piece ['.'] (cs ++ linksText heap links ++ tail) fun tokens =>
      ∃ offset, tokens = [.mark offset '.' false] := piece_lone (by decide) rfl hstarts
  rw [htext]
  refine (hpoint.append (hpiece.append hlinks)).mono ?_
  rintro _ ⟨_, _, rfl, ⟨point, rfl⟩, tokens, _, rfl, htokens, hrest⟩
  exact (spells point tokens htokens).append hrest

omit htail in
theorem piece_links_method {name : String} (hname : IsMember name) {trees : List Tree}
    (h : ∀ t ∈ trees, Renders heap t) :
    Piece (linksText heap (.method name trees :: links)) tail
      (SpellsLinks (.method name trees :: links)) := by
  have hcall : Piece (name.toList ++ argumentsText heap trees) (linksText heap links ++ tail)
      fun tokens => ∃ path offset content, tokens = path ++ [.group offset .paren content] ∧
        (∃ offset, path = [.name offset name]) ∧ SpellsAll trees content :=
    piece_call (fun _ => piece_name hname.1 (follows_cons (by decide) _)) h
  refine piece_point hlinks [.method name trees] ?_ ?_ hcall ?_
  · rw [← text_method]
    exact linksText_cons heap (.method name trees) links
  · rw [List.append_assoc, List.append_assoc]
    exact startsMark_name hname.1 _
  · rintro point _ ⟨_, bracket, content, rfl, ⟨offset, rfl⟩, hcontent⟩
    exact spellsLinks_method hname hcontent point offset bracket

theorem piece_links_property {name : String} (hname : IsMember name) :
    Piece (linksText heap (.property name :: links)) tail
      (SpellsLinks (.property name :: links)) := by
  have hafter : Follows (linksText heap links ++ tail) := follows_links htail
  refine piece_point hlinks [.property name] (linksText_cons heap (.property name) links) ?_
    (piece_name hname.1 hafter) ?_
  · rw [List.append_assoc]
    exact startsMark_name hname.1 _
  · rintro point _ ⟨offset, rfl⟩
    exact spellsLinks_property hname point offset

theorem piece_links_position {n : Nat} (hn : n < Nat.pow 2 32)
    (h : ∀ link ∈ links.head?, IsMember link.name) :
    Piece (linksText heap (.property (toString n) :: links)) tail
      (SpellsLinks (.property (toString n) :: links)) := by
  refine piece_point hlinks [.property (toString n)] ?_ ?_
    (piece_whole n (endsWhole_links h htail)) ?_
  · rw [← toList_digits]
    exact linksText_cons heap (.property (toString n)) links
  · rw [List.append_assoc]
    exact startsMark_digits n _
  · rintro point _ ⟨offset, rfl⟩
    exact spellsLinks_position hn point offset

theorem piece_links_positions {m n : Nat} (hm : m < Nat.pow 2 32) (hn : n < Nat.pow 2 32) :
    Piece (linksText heap (.property (toString m) :: .property (toString n) :: links)) tail
      (SpellsLinks (.property (toString m) :: .property (toString n) :: links)) := by
  refine piece_point hlinks [.property (toString m), .property (toString n)] ?_ ?_
    (piece_positions m n (follows_links htail).ends) ?_
  · rw [← toList_digits m, ← toList_digits n, List.append_assoc]
    rfl
  · rw [List.append_assoc, List.append_assoc]
    exact startsMark_digits m _
  · rintro point _ ⟨offset, digits, exponent, rfl⟩
    exact spellsLinks_positions hm hn point offset digits exponent

end Links

theorem piece_links (htail : Closes tail) (links : List Link)
    (hnames : ∀ link ∈ links, link.Named)
    (h : ∀ link ∈ links, ∀ t ∈ link.arguments, Renders heap t) :
    Piece (linksText heap links) tail (SpellsLinks links) := by
  -- A position before the links is one literal with the position they start with, if any.
  suffices Piece (linksText heap links) tail (SpellsLinks links) ∧ ∀ m < Nat.pow 2 32,
      Piece (linksText heap (.property (toString m) :: links)) tail
        (SpellsLinks (.property (toString m) :: links)) from this.1
  induction links with
  | nil =>
    have hnothing : Piece (linksText heap []) tail (SpellsLinks []) := Piece.nil .nil
    exact ⟨hnothing, fun m hm => piece_links_position htail hnothing hm nofun⟩
  | cons link links ih =>
    obtain ⟨hlinks, hposition⟩ := ih (fun link hlink => hnames link (.tail _ hlink))
      fun link hlink => h link (.tail _ hlink)
    have hcase : IsMember link.name ∨ ∃ n < Nat.pow 2 32, link = .property (toString n) := by
      cases link with
      | method name arguments => exact .inl (hnames _ List.mem_cons_self)
      | property name =>
        refine (hnames _ List.mem_cons_self : IsMember name ∨ IsPosition name).imp_right ?_
        rintro ⟨n, hn, rfl⟩
        exact ⟨n, hn, rfl⟩
    rcases hcase with hname | ⟨n, hn, rfl⟩
    · have hcons : Piece (linksText heap (link :: links)) tail (SpellsLinks (link :: links)) := by
        cases link with
        | method name arguments =>
          exact piece_links_method hlinks hname (h _ List.mem_cons_self)
        | property name => exact piece_links_property htail hlinks hname
      refine ⟨hcons, fun m hm => piece_links_position htail hcons hm ?_⟩
      rintro _ ⟨⟩
      exact hname
    · exact ⟨hposition n hn, fun m hm => piece_links_positions htail hlinks hm hn⟩

end Source
end ObjectNavigation
