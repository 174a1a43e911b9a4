import ObjectNavigation.Proofs.Source.Lexeme
import ObjectNavigation.Proofs.Source.Lowering

/-!
What the trees of sources are like: which names and constants may stand where, and how many
children a node has. A sum has at least two operands, none of which is a sum, a chain starts with
something that is no chain, and so on.
-/

namespace ObjectNavigation.Source

/-! ### Formed trees -/

/-- A link of a chain that comes after a point. -/
inductive Link where
  | property (name : String)
  | method (name : String) (arguments : List Tree)

namespace Link

def tree : Link → Tree
  | property name => .node (.property name) []
  | method name arguments => .node (.method name) (arguments.map some)

def arguments : Link → List Tree
  | property _ => []
  | method _ arguments => arguments

def Named : Link → Prop
  | property name => IsMember name ∨ IsPosition name
  | method name _ => IsMember name

end Link

/-- The trees that sources have. -/
inductive Formed : Tree → Prop
  | null : Formed (.node (.const .null) [])
  | bool (b : Bool) : Formed (.node (.const (.bool b)) [])
  | int {n : Nat} (h : n < Nat.pow 2 63) : Formed (.node (.const (.int (Int64.ofNat n))) [])
  | float {bits : Nat} (h : bits ≤ Decimal.infinityBits) :
    Formed (.node (.const (.float (Float.ofBits (UInt64.ofNat bits)))) [])
  | string (s : String) : Formed (.node (.const (.string s)) [])
  | property {name : String} (hname : IsSegment name) (hnull : name ≠ "null") :
    Formed (.node (.property name) [])
  | chain {first : Tree} {links : List Link} (hkind : first.kind ≠ .chain) (hfirst : Formed first)
    (hsome : links ≠ []) (hnames : ∀ link ∈ links, link.Named)
    (harguments : ∀ link ∈ links, ∀ t ∈ link.arguments, Formed t) :
    Formed (.node .chain (some first :: links.map fun link => some link.tree))
  | arithmetic {op : Operation} {operands : List Tree} (hcount : 2 ≤ operands.length)
    (hflat : (Body.arithmetic op).flattens = true → ∀ t ∈ operands, t.kind ≠ op.kind)
    (hbinary : (Body.arithmetic op).flattens = false → operands.length = 2)
    (hoperands : ∀ t ∈ operands, Formed t) :
    Formed (.node (.arithmetic op) (operands.map some))
  | negate {operand : Tree} (h : Formed operand) : Formed (.node .negate [some operand])
  | list {items : List Tree} (h : ∀ t ∈ items, Formed t) : Formed (.node .list (items.map some))
  | method {name : String} {arguments : List Tree} (hname : IsSegment name)
    (h : ∀ t ∈ arguments, Formed t) : Formed (.node (.method name) (arguments.map some))
  | staticMethod {types : List String} {name : String} {arguments : List Tree}
    (hsome : types ≠ []) (htypes : ∀ type ∈ types, IsSegment type) (hname : IsSegment name)
    (h : ∀ t ∈ arguments, Formed t) :
    Formed (.node (.staticMethod (".".intercalate types) name) (arguments.map some))

namespace Formed
variable {t base : Tree}

theorem link (h : Formed base) (link : Link) (hname : link.Named)
    (harguments : ∀ t ∈ link.arguments, Formed t) :
    Formed (.node .chain (base.spread .chain ++ [some link.tree])) := by
  -- A chain takes the link at its end, and any other tree becomes the first of a chain.
  by_cases hkind : base.kind = .chain
  · cases h with
    | @chain first links hfirst hformed hsome hnames hargs =>
      have hspread : Tree.spread .chain
          (.node .chain (some first :: links.map fun link => some link.tree)) =
          some first :: links.map fun link => some link.tree := rfl
      have hlinks : (some first :: links.map fun link => some link.tree) ++ [some link.tree] =
          some first :: (links ++ [link]).map fun link => some link.tree := by
        rw [List.map_append]
        rfl
      rw [hspread, hlinks]
      refine .chain hfirst hformed (List.append_ne_nil_of_right_ne_nil _ nofun) ?_ ?_
      · intro other hother
        rcases List.mem_append.1 hother with hother | hother
        · exact hnames other hother
        · exact List.mem_singleton.1 hother ▸ hname
      · intro other hother
        rcases List.mem_append.1 hother with hother | hother
        · exact hargs other hother
        · exact List.mem_singleton.1 hother ▸ harguments
    | @arithmetic op => cases op <;> cases hkind
    | _ => cases hkind
  · rw [Tree.spread, if_neg hkind]
    change Formed (.node .chain (some base :: [link].map fun link => some link.tree))
    exact .chain hkind h nofun (fun other hother => List.mem_singleton.1 hother ▸ hname)
      fun other hother => List.mem_singleton.1 hother ▸ harguments

theorem spread {op : Operation} (hflattens : (Body.arithmetic op).flattens = true)
    (h : Formed base) : ∃ operands : List Tree, base.spread op.kind = operands.map some ∧
      1 ≤ operands.length ∧ ∀ t ∈ operands, Formed t ∧ t.kind ≠ op.kind := by
  by_cases hkind : base.kind = op.kind
  · cases h with
    | @arithmetic other operands hcount hflat hbinary hoperands =>
      have hop : other = op := by cases other <;> cases op <;> first | rfl | cases hkind
      subst hop
      refine ⟨operands, if_pos rfl, Nat.le_of_succ_le hcount, fun t ht => ?_⟩
      exact ⟨hoperands t ht, hflat hflattens t ht⟩
    | _ => cases op <;> cases hkind
  · refine ⟨[base], if_neg hkind, Nat.le_refl 1, fun t ht => ?_⟩
    rw [List.mem_singleton.1 ht]
    exact ⟨h, hkind⟩

theorem flattened {op : Operation} (hflattens : (Body.arithmetic op).flattens = true)
    {left right : Tree} (hleft : Formed left) (hright : Formed right) :
    Formed (.node (.arithmetic op) (left.spread op.kind ++ right.spread op.kind)) := by
  obtain ⟨first, hfirst, hsome, hformed⟩ := hleft.spread hflattens
  obtain ⟨last, hlast, hsome', hformed'⟩ := hright.spread hflattens
  have hall : ∀ t ∈ first ++ last, Formed t ∧ t.kind ≠ op.kind := by
    intro t ht
    rcases List.mem_append.1 ht with ht | ht
    · exact hformed t ht
    · exact hformed' t ht
  rw [hfirst, hlast, ← List.map_append]
  refine .arithmetic ?_ (fun _ t ht => (hall t ht).2) (fun h => ?_) fun t ht => (hall t ht).1
  · rw [List.length_append]
    omega
  · rw [hflattens] at h
    cases h

theorem binary {op : Operation} (hbinary : (Body.arithmetic op).flattens = false)
    {left right : Tree} (hleft : Formed left) (hright : Formed right) :
    Formed (.node (.arithmetic op) [some left, some right]) := by
  change Formed (.node (.arithmetic op) ([left, right].map some))
  refine .arithmetic (Nat.le_refl 2) (fun h => ?_) (fun _ => rfl) ?_
  · rw [hbinary] at h
    cases h
  · intro t ht
    rcases List.mem_cons.1 ht with rfl | ht
    · exact hleft
    · exact List.mem_singleton.1 ht ▸ hright

theorem call {segments : List String} (hsegments : ∀ segment ∈ segments, IsSegment segment)
    {body : Body} (hbody : callBody segments = some body) {arguments : List Tree}
    (h : ∀ t ∈ arguments, Formed t) : Formed (.node body (arguments.map some)) := by
  obtain ⟨name, hname, hbody⟩ := Option.map_eq_some_iff.1 hbody
  have hlast : IsSegment name := hsegments name (List.mem_of_getLast? hname)
  have htypes : ∀ type ∈ segments.dropLast, IsSegment type := fun type htype =>
    hsegments type (segments.dropLast_sublist.mem htype)
  subst hbody
  split
  · exact .method hlast h
  next types hsome => exact .staticMethod (fun heq => hsome heq) htypes hlast h

theorem constant {value : Literal} {constant : Value} (h : value.constant? = some constant) :
    Formed (.node (.const constant) []) := by
  cases value with
  | int n =>
    rw [Literal.constant?] at h
    split at h
    · cases h
      exact .int ‹_›
    · cases h
  | float digits exponent =>
    cases h
    exact .float (Decimal.Numeral.nearestBits_le _)
  | text s =>
    cases h
    exact .string s
  | bool b =>
    cases h
    exact .bool b
  | bytes => cases h

end Formed

namespace Expr

mutual

theorem Named.formed {e : Expr} (h : e.Named) {t : Tree} (ht : e.normal? = some t) : Formed t := by
  match e with
  | literal offset text value =>
    obtain ⟨constant, hconstant, rfl⟩ := Option.map_eq_some_iff.1 ht
    exact .constant hconstant
  | path segments simple tokens =>
    match segments, simple with
    | [name], true =>
      cases ht
      split
      · exact .null
      · exact .property (h name List.mem_cons_self) ‹_›
    | [], simple => cases ht
    | [name], false => cases ht
    | _ :: _ :: _, simple => cases ht
  | field base name =>
    obtain ⟨base', hbase, ht⟩ := Option.bind_eq_some_iff.1 ht
    cases ht
    exact (h.1.formed hbase).link (.property name) h.2 nofun
  | invoke receiver method arguments =>
    obtain ⟨receiver', hreceiver, ht⟩ := Option.bind_eq_some_iff.1 ht
    obtain ⟨arguments', harguments, ht⟩ := Option.bind_eq_some_iff.1 ht
    cases ht
    exact (h.1.formed hreceiver).link (.method method arguments') h.2.1
      (AllNamed.formed h.2.2 harguments)
  | call segments arguments =>
    rw [normal?_call] at ht
    obtain ⟨body, hbody, ht⟩ := Option.bind_eq_some_iff.1 ht
    obtain ⟨arguments', harguments, ht⟩ := Option.bind_eq_some_iff.1 ht
    cases ht
    exact .call h.1 hbody (AllNamed.formed h.2 harguments)
  | apply target => cases ht
  | binary operator offset left right =>
    rw [normal?_binary] at ht
    obtain ⟨left', hleft, ht⟩ := Option.bind_eq_some_iff.1 ht
    obtain ⟨right', hright, ht⟩ := Option.bind_eq_some_iff.1 ht
    obtain ⟨op, hop, ht⟩ := Option.bind_eq_some_iff.1 ht
    have hleft := h.1.formed hleft
    have hright := h.2.formed hright
    cases op with
    | add => cases ht; exact .flattened rfl hleft hright
    | multiply => cases ht; exact .flattened rfl hleft hright
    | subtract => cases ht; exact .binary rfl hleft hright
    | divide => cases ht; exact .binary rfl hleft hright
  | unary operator offset operand =>
    rw [normal?] at ht
    split at ht
    · obtain ⟨operand', hoperand, ht⟩ := Option.bind_eq_some_iff.1 ht
      cases ht
      exact .negate (Named.formed (e := operand) h hoperand)
    · cases ht
  | list items =>
    obtain ⟨items', hitems, ht⟩ := Option.bind_eq_some_iff.1 ht
    cases ht
    exact .list (AllNamed.formed h hitems)
  | paren inner => exact Named.formed (e := inner) h ht
  | other shape tokens => cases ht

theorem AllNamed.formed {es : List Expr} (h : AllNamed es) {trees : List Tree}
    (htrees : normalAll? es = some trees) : ∀ t ∈ trees, Formed t := by
  match es with
  | [] =>
    cases htrees
    exact nofun
  | e :: rest =>
    obtain ⟨tree, htree, htrees⟩ := Option.bind_eq_some_iff.1 htrees
    obtain ⟨trees', hrest, htrees⟩ := Option.bind_eq_some_iff.1 htrees
    cases htrees
    intro t ht
    rcases List.mem_cons.1 ht with rfl | ht
    · exact h.1.formed htree
    · exact AllNamed.formed h.2 hrest t ht

end

end Expr

theorem parseExpression_eq_ok_iff {source : String} {t : Tree} :
    parseExpression source = .ok t ↔ ∃ tokens e, tokens? source.toList = some tokens ∧
      expression? tokens = some e ∧ e.normal? = some t := by
  have htree : ∀ e : Expr, (e.tree source.toList).mapError SourceError.unsupported = .ok t ↔
      e.normal? = some t := by
    intro e
    have h := e.tree_cases source.toList
    cases htree : e.tree source.toList with
    | ok tree =>
      rw [htree] at h
      rw [h]
      exact ⟨fun heq => congrArg some (Except.ok.inj heq), fun heq => by cases heq; rfl⟩
    | error error =>
      rw [htree] at h
      rw [h.1]
      exact ⟨nofun, nofun⟩
  rw [parseExpression]
  constructor
  · split
    next => exact nofun
    next e he =>
      intro h
      obtain ⟨tokens, htokens, he⟩ := Option.bind_eq_some_iff.1 he
      exact ⟨tokens, e, htokens, he, (htree e).1 h⟩
  · rintro ⟨tokens, e, htokens, he, ht⟩
    rw [htokens, Option.bind_some, he]
    exact (htree e).2 ht

theorem formed_of_parseExpression {source : String} {t : Tree}
    (h : parseExpression source = .ok t) : Formed t := by
  obtain ⟨tokens, e, htokens, he, ht⟩ := parseExpression_eq_ok_iff.1 h
  exact (named_expression? (allNamed_tokens? htokens) he).formed ht

end ObjectNavigation.Source
