import Mathlib.Tactic.MkIffOfInductiveProp
import ObjectNavigation.Proofs.Source.Text

/-!
Parsing the text of a tree. The text of a tree that was parsed is parsed to the same tree, unless
the tree has a float beyond all numbers or one of three things that its text does not show
(`Tree.Misread`): only operators on two sides are put in parentheses, and not a negation, although a
point after it would bind first.
-/

namespace ObjectNavigation

namespace Tree

variable {p : Tree → Prop} {t : Tree} {body : Body} {trees : List Tree}

mutual

/-- Whether something holds of a tree and of every tree below its root. -/
def Throughout (p : Tree → Prop) : Tree → Prop
  | node body slots => p (node body slots) ∧ ThroughoutSlots p slots

def ThroughoutSlots (p : Tree → Prop) : List (Option Tree) → Prop
  | [] => True
  | none :: rest => ThroughoutSlots p rest
  | some child :: rest => child.Throughout p ∧ ThroughoutSlots p rest

end

theorem throughoutSlots_iff :
    ThroughoutSlots p (trees.map some) ↔ ∀ t ∈ trees, t.Throughout p := by
  induction trees with
  | nil => exact ⟨nofun, fun _ => trivial⟩
  | cons t trees ih =>
    rw [List.map_cons, ThroughoutSlots, ih, List.forall_mem_cons]

theorem Throughout.root (h : t.Throughout p) : p t := by
  cases t
  exact h.1

theorem Throughout.below (h : (node body (trees.map some)).Throughout p) :
    ∀ t ∈ trees, t.Throughout p :=
  throughoutSlots_iff.1 h.2

/-- Whether a tree is no constant beyond the finite floats. -/
def IsFinite (t : Tree) : Prop :=
  ∀ x, t.body = .const (.float x) → x.isInf = false

/-- Whether the text of a tree says something else, for what is at its root. -/
@[mk_iff]
inductive Misread : Tree → Prop
  /-- The sign of what a chain starts with is read as that of the whole chain. -/
  | sign {first : Tree} {links : List (Option Tree)} (h : first.kind = .negate) :
    Misread (.node .chain (some first :: links))
  /-- A whole number and a position after it are read as one number. -/
  | position {first : Tree} {n : Int64} {name : String} {slots links : List (Option Tree)}
    (hfirst : first.body = .const (.int n)) (hname : Source.IsPosition name) :
    Misread (.node .chain (some first :: some (.node (.property name) slots) :: links))
  /-- A path of this one segment is none. -/
  | keyword {t : Tree} (h : t.body = .property "try" ∨ t.body = .method "try") : Misread t

end Tree

namespace Source

variable {heap : Heap} {t : Tree} {cs tail : List Char}

/-! ### Leaves -/

theorem renders_null : Renders heap (.node (.const .null) []) := by
  have hname : IsSegment "null" := by decide +kernel
  refine .of_head rfl fun tail htail _ => ?_
  have hpiece : Piece "null".toList tail _ := piece_name hname.1 htail
  refine hpiece.mono ?_
  rintro _ ⟨offset, rfl⟩
  exact leads_name offset hname (by decide)

theorem renders_bool (b : Bool) : Renders heap (.node (.const (.bool b)) []) := by
  have hname : IsName (if b then "true" else "false") := by cases b <;> decide +kernel
  refine .of_head rfl fun tail htail _ => ?_
  have hpiece : Piece (if b then "true" else "false").toList tail _ := piece_name hname htail
  refine hpiece.mono ?_
  rintro _ ⟨offset, rfl⟩
  exact leads_bool offset b

theorem renders_int {n : Nat} (h : n < Nat.pow 2 63) :
    Renders heap (.node (.const (.int (Int64.ofNat n))) []) := by
  have htext : ((Tree.node (.const (.int (Int64.ofNat n))) []).text heap).toList =
      Nat.toDigits 10 n := by
    change (toString (Int64.ofNat n).toInt).toList = _
    rw [Int64.toInt_ofNat_of_lt h, toList_toString_int, if_neg (by omega)]
    rfl
  refine .of_head rfl fun tail _ hwhole => ?_
  rw [htext]
  refine (piece_whole n (hwhole _ rfl)).mono ?_
  rintro _ ⟨offset, rfl⟩
  exact leads_literal offset _ (if_pos h)

theorem renders_float {bits : Nat} (h : bits < Decimal.infinityBits) :
    Renders heap (.node (.const (.float (Float.ofBits (UInt64.ofNat bits)))) []) := by
  obtain ⟨d, c, rest, hc, htext, hafter, hliteral, hnearest⟩ := Decimal.floatText_reads h
  refine .of_head rfl fun tail htail _ => ?_
  change Piece (Decimal.floatText (Float.ofBits (UInt64.ofNat bits))).toList tail _
  rw [htext]
  refine (piece_number hc (hafter tail htail.ends)).mono ?_
  rintro _ ⟨offset, rfl⟩
  refine leads_literal offset _ ?_
  rw [hliteral, ← hnearest]
  rfl

theorem renders_string (s : String) : Renders heap (.node (.const (.string s)) []) := by
  refine .of_head rfl fun tail htail _ => (piece_string s htail).mono ?_
  rintro _ ⟨offset, rfl⟩
  exact leads_literal offset _ rfl

theorem renders_property {name : String} (hname : IsSegment name) (hnull : name ≠ "null")
    (hread : ¬ (Tree.node (.property name) []).Misread) :
    Renders heap (.node (.property name) []) := by
  have htry : name ≠ "try" := by
    rintro rfl
    exact hread (.keyword (.inl rfl))
  refine .of_head rfl fun tail htail _ => (piece_name hname.1 htail).mono ?_
  rintro _ ⟨offset, rfl⟩
  have hleads := leads_name offset hname htry
  rwa [if_neg hnull] at hleads

/-! ### Lists and calls -/

theorem renders_list {items : List Tree} (h : ∀ t ∈ items, Renders heap t) :
    Renders heap (.node .list (items.map some)) := by
  have htext : ((Tree.node .list (items.map some)).text heap).toList =
      '[' :: ((", ".intercalate (items.map (Tree.operandText heap))).toList ++ [']']) := by
    rw [Tree.text, Tree.operandTexts_map]
    simp [Tree.layout]
  refine .of_head rfl fun tail _ _ => ?_
  rw [htext]
  refine (piece_bracket (piece_items h (closes_bracket tail))).mono ?_
  rintro _ ⟨offset, content, rfl, hcontent⟩
  exact hcontent.list offset

theorem renders_call {names : List String} {body : Body} {arguments : List Tree}
    (hsome : names ≠ []) (hnames : ∀ name ∈ names, IsSegment name) (hstart : names ≠ ["try"])
    (hbody : callBody names = some body) (hkind : body.kind.isOperator = false)
    (htext : ((Tree.node body (arguments.map some)).text heap).toList =
      ("::".intercalate names).toList ++ argumentsText heap arguments)
    (h : ∀ t ∈ arguments, Renders heap t) :
    Renders heap (.node body (arguments.map some)) := by
  refine .of_head hkind fun tail _ _ => ?_
  rw [htext]
  have hpath := fun tail => piece_path hsome hnames (follows_cons (by decide : '(' ∈ _) tail)
  refine (piece_call hpath h).mono ?_
  rintro _ ⟨path, offset, content, rfl, hpath, hcontent⟩
  exact hcontent.call hpath hstart hbody offset

theorem renders_method {name : String} {arguments : List Tree} (hname : IsSegment name)
    (hread : ¬ (Tree.node (.method name) (arguments.map some)).Misread)
    (h : ∀ t ∈ arguments, Renders heap t) :
    Renders heap (.node (.method name) (arguments.map some)) := by
  refine renders_call (List.cons_ne_nil name []) ?_ ?_ rfl rfl ?_ h
  · intro segment hsegment
    exact List.mem_singleton.1 hsegment ▸ hname
  · intro heq
    exact hread (.keyword (.inr (congrArg Body.method (List.singleton_inj.1 heq))))
  · rw [String.intercalate_singleton]
    exact text_method heap name arguments

theorem segments_intercalate {types : List String} (h : ∀ type ∈ types, IsName type) :
    Tree.segments (".".intercalate types) = "::".intercalate types := by
  have hsame : ∀ type ∈ types, (type.toList.flatMap fun c => if c = '.' then [':', ':'] else [c]) =
      type.toList := by
    intro type htype
    have hchar : ∀ c ∈ type.toList, (if c = '.' then [':', ':'] else [c]) = [c] := by
      intro c hc
      refine if_neg ?_
      rintro rfl
      exact (h type htype).point_not_mem hc
    rw [List.flatMap_congr hchar, List.flatMap_singleton']
  have hlist : ((".".intercalate types).toList.flatMap fun c =>
      if c = '.' then [':', ':'] else [c]) = ("::".intercalate types).toList := by
    cases types with
    | nil => rfl
    | cons type types =>
      rw [toList_intercalate_cons, toList_intercalate_cons, List.flatMap_append,
        hsame type List.mem_cons_self, List.flatMap_assoc]
      refine congrArg _ (List.flatMap_congr fun next hnext => ?_)
      rw [List.flatMap_append, hsame next (List.mem_cons_of_mem _ hnext)]
      rfl
  rw [Tree.segments, hlist, String.ofList_toList]

theorem renders_staticMethod {types : List String} {name : String} {arguments : List Tree}
    (hsome : types ≠ []) (htypes : ∀ type ∈ types, IsSegment type) (hname : IsSegment name)
    (h : ∀ t ∈ arguments, Renders heap t) :
    Renders heap (.node (.staticMethod (".".intercalate types) name) (arguments.map some)) := by
  obtain ⟨type, types, rfl⟩ := List.exists_cons_of_ne_nil hsome
  have hbody : callBody (type :: (types ++ [name])) =
      some (.staticMethod (".".intercalate (type :: types)) name) := by
    rw [← List.cons_append, callBody, List.getLast?_concat, List.dropLast_concat]
    rfl
  refine renders_call (List.cons_ne_nil type _) ?_ ?_ hbody rfl ?_ h
  · intro segment hsegment
    rw [← List.cons_append] at hsegment
    rcases List.mem_append.1 hsegment with hsegment | hsegment
    · exact htypes segment hsegment
    · exact List.mem_singleton.1 hsegment ▸ hname
  · intro heq
    exact List.append_ne_nil_of_right_ne_nil types (List.cons_ne_nil name []) (List.cons.inj heq).2
  · have hsegments := segments_intercalate fun type htype => (htypes type htype).1
    have hpath : ("::".intercalate (type :: (types ++ [name]))).toList =
        ("::".intercalate (type :: types) ++ "::" ++ name).toList := by
      rw [String.toList_append, String.toList_append, toList_intercalate_cons,
        toList_intercalate_cons, List.flatMap_append]
      simp
    rw [Tree.text, Tree.operandTexts_map, hpath]
    change (Tree.segments _ ++ "::" ++ name ++ "(" ++ _ ++ ")").toList = _
    rw [hsegments]
    simp [argumentsText]

/-! ### Chains -/

theorem operandText_of_kind (h : t.kind.isOperator = false) : t.operandText heap = t.text heap := by
  rw [Tree.operandText, h]
  rfl

theorem text_chain (heap : Heap) (first : Tree) (links : List Link) :
    ((Tree.node .chain (some first :: links.map fun link => some link.tree)).text heap).toList =
      (first.operandText heap).toList ++ linksText heap links := by
  have hslots : (some first :: links.map fun link => some link.tree) =
      (first :: links.map Link.tree).map some := by
    rw [List.map_cons, List.map_map]
    rfl
  have hlink : ∀ link : Link, link.tree.operandText heap = link.tree.text heap := by
    intro link
    cases link <;> exact operandText_of_kind rfl
  rw [Tree.text, hslots, Tree.operandTexts_map]
  change (".".intercalate _).toList = _
  rw [List.map_cons, toList_intercalate_cons, List.map_map, List.flatMap_map, linksText]
  refine congrArg _ (List.flatMap_congr fun link _ => ?_)
  rw [Function.comp_apply, hlink]
  rfl

/-- What a chain of which the text says what it is starts with ends before the links. -/
theorem endsWhole_of_read {first : Tree} {links : List Link} (hnames : ∀ link ∈ links, link.Named)
    (hread : ¬ (Tree.node .chain (some first :: links.map fun link => some link.tree)).Misread)
    (htail : Closes tail) {n : Int64} (hfirst : first.body = .const (.int n)) :
    EndsWhole (linksText heap links ++ tail) := by
  refine endsWhole_links (fun link hlink => ?_) htail
  cases links with
  | nil => cases hlink
  | cons head links =>
    cases hlink
    cases link with
    | method name arguments => exact hnames _ List.mem_cons_self
    | property name =>
      refine (hnames _ List.mem_cons_self : IsMember name ∨ IsPosition name).resolve_right ?_
      exact fun hname => hread (.position hfirst hname)

theorem renders_chain {first : Tree} {links : List Link} (hkind : first.kind ≠ .chain)
    (hsome : links ≠ []) (hnames : ∀ link ∈ links, link.Named)
    (hread : ¬ (Tree.node .chain (some first :: links.map fun link => some link.tree)).Misread)
    (hfirst : Renders heap first) (h : ∀ link ∈ links, ∀ t ∈ link.arguments, Renders heap t) :
    Renders heap (.node .chain (some first :: links.map fun link => some link.tree)) := by
  have hsign : first.kind ≠ .negate := fun hnegate => hread (.sign hnegate)
  refine .of_operand (.inr rfl) fun tail htail => ?_
  rw [text_chain]
  refine ((hfirst.head hsign hkind (follows_links htail) fun n hn =>
    endsWhole_of_read hnames hread htail hn).append (piece_links htail links hnames h)).mono ?_
  rintro _ ⟨tokens, others, rfl, hleads, hlinks⟩
  have hchain := (hleads.links hlinks).operand
  rwa [foldl_linked hsome hkind] at hchain

/-! ### Operators -/

theorem renders_negate {operand : Tree} (h : Renders heap operand) :
    Renders heap (.node .negate [some operand]) := by
  have htext : ((Tree.node .negate [some operand]).text heap).toList =
      ['-'] ++ (operand.operandText heap).toList := by
    have hslots : [some operand] = [operand].map some := rfl
    rw [Tree.text, hslots, Tree.operandTexts_map]
    simp [Tree.layout]
  refine .of_operand (.inl rfl) fun tail htail => ?_
  rw [htext]
  refine ((piece_mark (by decide) rfl).append (h.operand htail)).mono ?_
  rintro _ ⟨_, tokens, rfl, ⟨offset, rfl⟩, hspells⟩
  exact hspells.negate offset _

theorem text_arithmetic (heap : Heap) (op : Operation) (t : Tree) (trees : List Tree) :
    ((Tree.node (.arithmetic op) ((t :: trees).map some)).text heap).toList =
      (t.operandText heap).toList ++
        trees.flatMap fun t => [' '] ++ ([sign op] ++ ([' '] ++ (t.operandText heap).toList)) := by
  have hsign : op.symbol.toList = [sign op] := by cases op <;> rfl
  rw [Tree.text, Tree.operandTexts_map]
  change ((" " ++ op.symbol ++ " ").intercalate _).toList = _
  rw [List.map_cons, toList_intercalate_cons, List.flatMap_map]
  simp [hsign]

theorem renders_arithmetic {op : Operation} {operands : List Tree} (hcount : 2 ≤ operands.length)
    (hflat : (Body.arithmetic op).flattens = true → ∀ t ∈ operands, t.kind ≠ op.kind)
    (hbinary : (Body.arithmetic op).flattens = false → operands.length = 2)
    (h : ∀ t ∈ operands, Renders heap t) :
    Renders heap (.node (.arithmetic op) (operands.map some)) := by
  obtain ⟨t, u, trees, rfl⟩ : ∃ t u trees, operands = t :: u :: trees := by
    match operands, hcount with
    | t :: u :: trees, _ => exact ⟨t, u, trees, rfl⟩
  have hkind : (Body.arithmetic op).kind.isOperator = true := by cases op <;> rfl
  refine .of_whole hkind fun tail htail => ?_
  have hmore : ∀ v ∈ u :: trees, Renders heap v := fun v hv => h v (List.mem_cons_of_mem t hv)
  rw [text_arithmetic]
  refine (((h t List.mem_cons_self).operand (closes_blank _)).append
    (piece_operands hmore htail)).mono ?_
  rintro _ ⟨tokens, others, rfl, hspells, hothers⟩
  have hall := hspells.arithmetic hothers
  rwa [foldl_combined (List.cons_ne_nil u trees) hflat hbinary] at hall

/-! ### Whole trees -/

theorem isInf_infinityBits :
    (Float.ofBits (UInt64.ofNat Decimal.infinityBits)).isInf = true := by
  decide +kernel

theorem renders_of_formed (h : Formed t) (hfinite : t.Throughout Tree.IsFinite)
    (hread : t.Throughout (¬ ·.Misread)) : Renders heap t := by
  induction h with
  | null => exact renders_null
  | bool b => exact renders_bool b
  | int h => exact renders_int h
  | @float bits h =>
    -- A literal may be too large for a finite float, and infinity is printed as a name.
    refine renders_float (Nat.lt_of_le_of_ne h ?_)
    rintro rfl
    have hinf := hfinite.root _ rfl
    rw [isInf_infinityBits] at hinf
    cases hinf
  | string s => exact renders_string s
  | property hname hnull => exact renders_property hname hnull hread.root
  | @chain first links hkind _ hsome hnames _ ih ihlinks =>
    have hslots : (some first :: links.map fun link => some link.tree) =
        (first :: links.map Link.tree).map some := by
      rw [List.map_cons, List.map_map]
      rfl
    have hlinks : ∀ {p : Tree → Prop}, (Tree.node .chain
        (some first :: links.map fun link => some link.tree)).Throughout p →
        first.Throughout p ∧ ∀ link ∈ links, ∀ t ∈ link.arguments, t.Throughout p := by
      intro p hp
      rw [hslots] at hp
      refine ⟨hp.below first List.mem_cons_self, fun link hlink => ?_⟩
      have hbelow := hp.below link.tree (List.mem_cons_of_mem _ (List.mem_map_of_mem hlink))
      cases link with
      | property name =>
        intro t ht
        cases ht
      | method name arguments => exact hbelow.below
    obtain ⟨hfinite, hfiniteLinks⟩ := hlinks hfinite
    obtain ⟨hreadFirst, hreadLinks⟩ := hlinks hread
    exact renders_chain hkind hsome hnames hread.root (ih hfinite hreadFirst) fun link hlink t ht =>
      ihlinks link hlink t ht (hfiniteLinks link hlink t ht) (hreadLinks link hlink t ht)
  | arithmetic hcount hflat hbinary _ ih =>
    exact renders_arithmetic hcount hflat hbinary fun t ht =>
      ih t ht (hfinite.below t ht) (hread.below t ht)
  | @negate operand _ ih =>
    exact renders_negate (ih hfinite.2.1 hread.2.1)
  | list _ ih =>
    exact renders_list fun t ht => ih t ht (hfinite.below t ht) (hread.below t ht)
  | method hname _ ih =>
    exact renders_method hname hread.root fun t ht =>
      ih t ht (hfinite.below t ht) (hread.below t ht)
  | staticMethod hsome htypes hname _ ih =>
    exact renders_staticMethod hsome htypes hname fun t ht =>
      ih t ht (hfinite.below t ht) (hread.below t ht)

theorem parseExpression_of_formed (h : Formed t) (hfinite : t.Throughout Tree.IsFinite)
    (hread : t.Throughout (¬ ·.Misread)) (heap : Heap) :
    parseExpression (t.text heap) = .ok t := by
  have hnothing : Closes [] := nofun
  have hpiece : Piece (t.text heap).toList [] (Spells t) :=
    (renders_of_formed h hfinite hread).whole hnothing
  obtain ⟨tokens, htokens, hspells⟩ := hpiece.tokens?
  obtain ⟨e, he, ht⟩ := hspells.expression?
  exact parseExpression_eq_ok_iff.2 ⟨tokens, e, htokens, he, ht⟩

/-- The text of a parsed tree is parsed to the same tree. -/
theorem parseExpression_text {source : String} (h : parseExpression source = .ok t)
    (hfinite : t.Throughout Tree.IsFinite) (hread : t.Throughout (¬ ·.Misread)) (heap : Heap) :
    parseExpression (t.text heap) = .ok t :=
  parseExpression_of_formed (formed_of_parseExpression h) hfinite hread heap

theorem parseExpression_text_product :
    let t : Tree := .node (.arithmetic .multiply) [
      some (.node .chain [
        some (.node (.arithmetic .add) [
          some (.node (.property "a") []), some (.node (.const (.int 1)) [])]),
        some (.node (.property "b") [])]),
      some (.node .negate [
        some (.node (.const (.float (Decimal.Numeral.nearest ⟨250, -2⟩))) [])])]
    parseExpression "((a + 1).b) * -2.50" = .ok t ∧ t.Throughout Tree.IsFinite ∧
      t.Throughout (¬ ·.Misread) ∧ t.text default = "(a + 1).b * -2.5" ∧
      parseExpression (t.text default) = .ok t := by
  intro t
  have h : parseExpression "((a + 1).b) * -2.50" = .ok t :=
    parseExpression_eq_ok_iff.2 ⟨[.group 0 .paren [.group 1 .paren [.name 2 "a",
      .mark 4 '+' false, .literal 6 "1" (.int 1)], .mark 8 '.' false, .name 9 "b"],
      .mark 12 '*' false, .mark 14 '-' false, .literal 15 "2.50" (.float 250 (-2))],
      .binary "*" 12 (.paren (.field (.paren (.binary "+" 4 (.path ["a"] true [.name 2 "a"])
        (.literal 6 "1" (.int 1)))) "b")) (.unary "-" 14 (.literal 15 "2.50" (.float 250 (-2)))),
      rfl, rfl, rfl⟩
  have hfinite : t.Throughout Tree.IsFinite := by
    simp only [t, Tree.Throughout, Tree.ThroughoutSlots, Tree.IsFinite, Tree.body]
    refine ⟨nofun, ⟨nofun, ⟨nofun, ⟨nofun, trivial⟩, ⟨nofun, trivial⟩, trivial⟩, ⟨nofun, trivial⟩,
      trivial⟩, ⟨nofun, ⟨?_, trivial⟩, trivial⟩, trivial⟩
    rintro _ ⟨⟩
    decide +kernel
  have hread : t.Throughout (¬ ·.Misread) := by
    simp [t, Tree.Throughout, Tree.ThroughoutSlots, Tree.misread_iff, Tree.kind, Tree.body,
      Body.kind, Operation.kind]
  exact ⟨h, hfinite, hread, by decide +kernel, parseExpression_text h hfinite hread default⟩

/-! ### Constants -/

theorem formed_int_iff {n : Int64} : Formed (.node (.const (.int n)) []) ↔ 0 ≤ n.toInt := by
  constructor
  · generalize ht : Tree.node (.const (.int n)) [] = t
    intro h
    cases h <;> cases ht
    next m hm =>
      rw [Int64.toInt_ofNat_of_lt hm]
      exact Int.natCast_nonneg m
  · intro h
    obtain ⟨m, hm⟩ := Int.eq_ofNat_of_zero_le h
    have hlt : m < 2 ^ 63 := by
      have := n.toInt_lt
      omega
    have hn : Int64.ofNat m = n := by
      rw [← Int64.toInt_inj, Int64.toInt_ofNat_of_lt hlt, hm]
    exact hn ▸ .int hlt

/-- The text of a string is read as the string, and that of an integer as the integer unless it is
negative, whatever is in the slots of the node. -/
theorem parseExpression_text_const (heap : Heap) (slots : List (Option Tree)) :
    (∀ s : String, parseExpression ((Tree.node (.const (.string s)) slots).text heap) =
      .ok (.node (.const (.string s)) [])) ∧
    ∀ n : Int64, parseExpression ((Tree.node (.const (.int n)) slots).text heap) =
      .ok (.node (.const (.int n)) []) ↔ 0 ≤ n.toInt := by
  have hread : ∀ value : Value, (∀ x, value ≠ .float x) → Formed (.node (.const value) []) →
      parseExpression ((Tree.node (.const value) slots).text heap) =
        .ok (.node (.const value) []) := by
    intro value hfloat h
    have hfinite : (Tree.node (.const value) []).IsFinite := by
      rintro x ⟨⟩
      exact absurd rfl (hfloat x)
    have hshown : ¬ (Tree.node (.const value) []).Misread := by
      simp [Tree.misread_iff, Tree.body]
    exact parseExpression_of_formed h ⟨hfinite, trivial⟩ ⟨hshown, trivial⟩ heap
  constructor
  · intro s
    refine hread (.string s) ?_ (.string s)
    rintro x ⟨⟩
  · intro n
    constructor
    · intro h
      exact formed_int_iff.1 (formed_of_parseExpression h)
    · intro h
      refine hread (.int n) ?_ (formed_int_iff.2 h)
      rintro x ⟨⟩

/-- What looks like an escape in a string is none in its text. -/
example : (Tree.node (.const (.string "\\u\x7b41\x7d\t")) []).text default =
    "\"\\\\u\x7b41\x7d\\t\"" := by
  decide +kernel

/-- The sign of a negative integer is read as an operator. -/
theorem parseExpression_text_neg {n : Int64} (h : 0 < n.toInt) (heap : Heap) :
    parseExpression ((Tree.node (.const (.int (-n))) []).text heap) =
      .ok (.node .negate [some (.node (.const (.int n)) [])]) := by
  have hneg : (-n).toInt = Int.negSucc (n.toInt.toNat - 1) := by
    have hlt := n.toInt_lt
    rw [Int64.toInt_neg, Int.bmod_eq_of_le (by omega) (by omega)]
    omega
  have hnat : n.toInt = ((n.toInt.toNat - 1 + 1 : Nat) : Int) := by omega
  have htext : (Tree.node (.const (.int (-n))) []).text heap =
      (Tree.node .negate [some (.node (.const (.int n)) [])]).text heap := by
    change toString (-n).toInt = "-" ++ "".intercalate [toString n.toInt]
    rw [String.intercalate_singleton, hneg, hnat]
    rfl
  have hfinite : (Tree.node .negate [some (.node (.const (.int n)) [])]).Throughout
      Tree.IsFinite := by
    simp [Tree.Throughout, Tree.ThroughoutSlots, Tree.IsFinite, Tree.body]
  have hread : (Tree.node .negate [some (.node (.const (.int n)) [])]).Throughout
      (¬ ·.Misread) := by
    simp [Tree.Throughout, Tree.ThroughoutSlots, Tree.misread_iff, Tree.body]
  rw [htext]
  exact parseExpression_of_formed (formed_int_iff.2 h.le).negate hfinite hread heap

/-! ### What is read otherwise -/

/-- A chain that starts with a negation has the text of the negation of a chain. -/
theorem text_chain_negate (heap : Heap) (operand : Tree) (links : List (Option Tree)) :
    (Tree.node .chain (some (.node .negate [some operand]) :: links)).text heap =
      (Tree.node .negate [some (.node .chain (some operand :: links))]).text heap := by
  have htext : ∀ first : Tree, (Tree.node .chain (some first :: links)).text heap =
      ".".intercalate (first.operandText heap :: Tree.operandTexts heap links) := fun _ => rfl
  have hnegate : ∀ operand : Tree, (Tree.node .negate [some operand]).text heap =
      "-" ++ operand.operandText heap := by
    intro operand
    change "-" ++ "".intercalate [operand.operandText heap] = _
    rw [String.intercalate_singleton]
  rw [htext, hnegate, operandText_of_kind rfl, operandText_of_kind rfl, hnegate, htext]
  refine String.toList_injective ?_
  rw [String.toList_append, toList_intercalate_cons, toList_intercalate_cons, String.toList_append,
    List.append_assoc]

theorem parseExpression_text_sign {operand : Tree} {links : List (Option Tree)}
    (h : Formed (.node .chain (some operand :: links)))
    (hfinite : (Tree.node .chain (some operand :: links)).Throughout Tree.IsFinite)
    (hread : (Tree.node .chain (some operand :: links)).Throughout (¬ ·.Misread)) (heap : Heap) :
    parseExpression ((Tree.node .chain (some (.node .negate [some operand]) :: links)).text heap) =
      .ok (.node .negate [some (.node .chain (some operand :: links))]) := by
  have hsign : ¬ (Tree.node .negate [some (.node .chain (some operand :: links))]).Misread := by
    simp [Tree.misread_iff, Tree.body]
  have hnumber : (Tree.node .negate [some (.node .chain (some operand :: links))]).IsFinite := by
    rintro x ⟨⟩
  rw [text_chain_negate]
  exact parseExpression_of_formed h.negate ⟨hnumber, hfinite, trivial⟩ ⟨hsign, hread, trivial⟩ heap

theorem parseExpression_text_ne :
    let t : Tree := .node .chain [some (.node .negate [some (.node (.property "a") [])]),
      some (.node (.property "b") [])]
    let u : Tree := .node .negate [some (.node .chain [some (.node (.property "a") []),
      some (.node (.property "b") [])])]
    parseExpression "(-a).b" = .ok t ∧ t.Throughout Tree.IsFinite ∧ t.text default = "-a.b" ∧
      parseExpression (t.text default) = .ok u ∧ u ≠ t := by
  intro t u
  have ht : parseExpression "(-a).b" = .ok t :=
    parseExpression_eq_ok_iff.2 ⟨[.group 0 .paren [.mark 1 '-' false, .name 2 "a"],
      .mark 4 '.' false, .name 5 "b"],
      .field (.paren (.unary "-" 1 (.path ["a"] true [.name 2 "a"]))) "b", rfl, rfl, rfl⟩
  have hu : parseExpression "-a.b" = .ok u :=
    parseExpression_eq_ok_iff.2 ⟨[.mark 0 '-' false, .name 1 "a", .mark 2 '.' false, .name 3 "b"],
      .unary "-" 0 (.field (.path ["a"] true [.name 1 "a"]) "b"), rfl, rfl, rfl⟩
  have htext : t.text default = "-a.b" := by decide +kernel
  have hfinite : t.Throughout Tree.IsFinite := by
    simp [t, Tree.Throughout, Tree.ThroughoutSlots, Tree.IsFinite, Tree.body]
  have hother : u ≠ t := fun heq => by cases congrArg Tree.body heq
  exact ⟨ht, hfinite, htext, htext ▸ hu, hother⟩

example : parseExpression "(1).0" =
      .ok (.node .chain [some (.node (.const (.int 1)) []), some (.node (.property "0") [])]) ∧
    parseExpression "1.0" = .ok (.node (.const (.float (Decimal.Numeral.nearest ⟨10, -1⟩))) []) :=
  ⟨parseExpression_eq_ok_iff.2 ⟨[.group 0 .paren [.literal 1 "1" (.int 1)], .mark 3 '.' false,
      .literal 4 "0" (.int 0)], .field (.paren (.literal 1 "1" (.int 1))) "0", rfl, rfl, rfl⟩,
    parseExpression_eq_ok_iff.2 ⟨[.literal 0 "1.0" (.float 10 (-1))],
      .literal 0 "1.0" (.float 10 (-1)), rfl, rfl, rfl⟩⟩

example : parseExpression "<T>::try(a)" =
      .ok (.node (.method "try") [some (.node (.property "a") [])]) ∧
    (parseExpression "try(a)").isOk = false :=
  ⟨parseExpression_eq_ok_iff.2 ⟨[.mark 0 '<' false, .name 1 "T", .mark 2 '>' true,
      .mark 3 ':' true, .mark 4 ':' false, .name 5 "try", .group 8 .paren [.name 9 "a"]],
      .call ["try"] [.path ["a"] true [.name 9 "a"]], rfl, rfl, rfl⟩, by decide +kernel⟩

end Source
end ObjectNavigation
