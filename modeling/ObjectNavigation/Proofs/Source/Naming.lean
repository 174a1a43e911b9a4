import ObjectNavigation.Proofs.Source.Parser
import ObjectNavigation.Source.Expression

/-!
The names in an expression. Members are names that are not reserved, or positions; what a path
consists of may also be one of the few reserved words that paths are made of.
-/

namespace ObjectNavigation.Source

def IsMember (name : String) : Prop :=
  IsName name ∧ name ∉ reservedWords

/-- Whether a text is a position as it is written shortest. -/
def IsPosition (name : String) : Prop :=
  ∃ n < Nat.pow 2 32, name = toString n

def segmentWords : List String := ["crate", "self", "Self", "super", "try"]

/-- Whether a path may have a segment of this name. -/
def IsSegment (name : String) : Prop :=
  IsName name ∧ (name ∈ reservedWords → name ∈ segmentWords)

instance (name : String) : Decidable (IsSegment name) :=
  inferInstanceAs (Decidable (_ ∧ _))

theorem IsMember.segment {name : String} (h : IsMember name) : IsSegment name :=
  ⟨h.1, fun hreserved => absurd hreserved h.2⟩

namespace Expr

mutual

/-- Whether the names in an expression are what may stand in their places. -/
def Named : Expr → Prop
  | literal _ _ _ => True
  | path segments _ _ => ∀ segment ∈ segments, IsSegment segment
  | field base name => base.Named ∧ (IsMember name ∨ IsPosition name)
  | invoke receiver method arguments => receiver.Named ∧ IsMember method ∧ AllNamed arguments
  | call segments arguments => (∀ segment ∈ segments, IsSegment segment) ∧ AllNamed arguments
  | apply _ => True
  | binary _ _ left right => left.Named ∧ right.Named
  | unary _ _ operand => operand.Named
  | list items => AllNamed items
  | paren inner => inner.Named
  | other _ _ => True

def AllNamed : List Expr → Prop
  | [] => True
  | e :: rest => e.Named ∧ AllNamed rest

end

theorem allNamed_iff {es : List Expr} : AllNamed es ↔ ∀ e ∈ es, e.Named := by
  induction es with
  | nil => simp [AllNamed]
  | cons e rest ih => simp [AllNamed, ih]

theorem Named.spanning {e : Expr} (h : e.Named) (tokens : List Token) :
    (e.spanning tokens).Named := by
  cases e <;> exact h

end Expr

namespace TokenParser

variable {α : Type} {c : Cursor} {parser : TokenParser α} {p : α → Prop}

theorem yields_anyName (hc : Token.AllNamed c.rest) :
    Yields anyName c fun name =>
      IsName name ∧ ∃ offset rest, c.rest = .name offset name :: rest := by
  intro name after hrun
  obtain ⟨tokens, printed⟩ := c
  match tokens, hrun with
  | .name offset text :: rest, rfl => exact ⟨hc.1, offset, rest, rfl⟩

theorem yields_name (hc : Token.AllNamed c.rest) : Yields name c IsMember := by
  refine Yields.ahead ?_
  intro text after hrun
  obtain ⟨⟨⟩, between, hrequire, hrun⟩ : ∃ _ between, (require (Next.name c.rest)).run c =
      some ((), between) ∧ anyName.run between = some (text, after) := by
    obtain ⟨⟨⟨⟩, between⟩, hrequire, hrun⟩ := Option.bind_eq_some_iff.1 hrun
    exact ⟨(), between, hrequire, hrun⟩
  cases hname : Next.name c.rest with
  | false =>
    rw [hname] at hrequire
    cases hrequire
  | true =>
    rw [hname] at hrequire
    cases hrequire
    obtain ⟨hisName, offset, rest, hrest⟩ := yields_anyName hc _ _ hrun
    rw [hrest] at hname
    exact ⟨hisName, by simpa [Next.name] using hname⟩

theorem yields_items (hc : Token.AllNamed c.rest)
    (h : ∀ c, Token.AllNamed c.rest → Yields parser c p) :
    Yields (items parser) c fun found => ∀ a ∈ found, p a := by
  have hreverse : ∀ {found : List α}, (∀ a ∈ found, p a) → ∀ a ∈ found.reverse, p a :=
    fun h a ha => h a (List.mem_reverse.1 ha)
  refine yields_untilDone hc (r := fun found => ∀ a ∈ found, p a) nofun fun found c hfound hc => ?_
  refine Yields.skip hc fun _ c hc => ?_
  refine Yields.ite (fun _ => Yields.pure (hreverse hfound)) fun _ => ?_
  refine Yields.bind hc (h c hc) fun a c hc ha => ?_
  have hmore : ∀ b ∈ a :: found, p b := fun b hb => by
    rcases List.mem_cons.1 hb with rfl | hb
    · exact ha
    · exact hfound b hb
  refine Yields.skip hc fun _ c hc => ?_
  refine Yields.ite (fun _ => Yields.pure (hreverse hmore)) fun _ => ?_
  exact Yields.skip hc fun _ c hc => Yields.pure hmore

end TokenParser

namespace Grammar
open TokenParser

variable {g : Grammar} {c : Cursor}

structure Names (g : Grammar) : Prop where
  expression : ∀ structs c, Token.AllNamed c.rest → Yields (g.expression structs) c Expr.Named
  operand : ∀ structs c, Token.AllNamed c.rest → Yields (g.operand structs) c Expr.Named
  continued : ∀ structs start e level c, e.Named → Token.AllNamed c.rest →
    Yields (g.continued structs start e level) c Expr.Named

theorem index?_lt {cs : List Char} {n : Nat} (h : index? cs = some n) : n < Nat.pow 2 32 := by
  rw [index?] at h
  split at h
  · split at h
    · cases h
      assumption
    · cases h
  · cases h

theorem yields_member (hc : Token.AllNamed c.rest) :
    Yields member c fun name => IsMember name ∨ Next.name c.rest = false ∧ IsPosition name := by
  refine Yields.ahead (Yields.ite (fun _ => ?_) fun hname => ?_)
  · exact (yields_name hc).mono fun name hname => Or.inl hname
  · refine Yields.skip hc fun start c hc => Yields.skip hc fun token c hc => ?_
    split
    · split
      next n hindex =>
        refine Yields.skip hc fun _ c _ => Yields.pure (Or.inr ⟨?_, n, index?_lt hindex, rfl⟩)
        exact Bool.eq_false_iff.2 hname
      next => exact Yields.failure
    · exact Yields.failure

/-! ### Paths -/

def Path.Named (path : Path) : Prop :=
  ∀ segment ∈ path.segments, IsSegment segment

theorem Path.Named.push {path : Path} (h : path.Named) {name : String} (hname : IsSegment name)
    (arguments : Arguments) : (path.push name arguments).Named := by
  intro segment hsegment
  rcases List.mem_append.1 hsegment with hsegment | hsegment
  · exact h segment hsegment
  · rw [List.mem_singleton.1 hsegment]
    exact hname

theorem eq_of_word {text : String} {tokens : List Token} (h : Next.word text tokens = true)
    {offset : Nat} {name : String} {rest : List Token}
    (htokens : tokens = .name offset name :: rest) : name = text := by
  subst htokens
  exact beq_iff_eq.1 h

theorem yields_segment (inExpression : Bool) {path : Path} (hpath : path.Named)
    (hc : Token.AllNamed c.rest) : Yields (segment g inExpression path) c Path.Named := by
  refine Yields.ahead (Yields.ite (fun hword => ?_) fun _ => ?_)
  · refine Yields.bind hc (yields_anyName hc) fun name _ _ hname => Yields.pure ?_
    obtain ⟨hisName, offset, rest, hrest⟩ := hname
    refine hpath.push ⟨hisName, fun _ => ?_⟩ _
    rw [hrest] at hword
    simp only [pathWord, Next.word, Bool.or_eq_true, Bool.and_eq_true, beq_iff_eq] at hword
    rcases hword with ⟨((rfl | rfl) | rfl) | rfl, _⟩ | rfl <;> decide
  · -- the name is read in one of two ways, and its arguments after either
    have hlast : ∀ name c, IsSegment name → Token.AllNamed c.rest → Yields (do
        if argumentsAhead inExpression (← ahead) then
          let start ← here
          let given ← genericArguments g
          return path.push name (if given then .given else .empty start)
        else return path.push name .absent) c Path.Named := by
      intro name c hname hc
      refine Yields.ahead (Yields.ite (fun _ => ?_) fun _ => Yields.pure (hpath.push hname _))
      exact Yields.skip hc fun start c hc => Yields.skip hc fun given c _ =>
        Yields.pure (hpath.push hname _)
    refine Yields.ite (fun hself => ?_) fun _ => ?_
    · refine Yields.bind hc (yields_anyName hc) fun name c hc hname => hlast name c ?_ hc
      obtain ⟨hisName, offset, rest, hrest⟩ := hname
      rw [eq_of_word hself hrest] at hisName ⊢
      exact ⟨hisName, fun _ => by decide⟩
    · exact Yields.bind hc (yields_name hc) fun name c hc hname => hlast name c hname.segment hc

theorem yields_furtherSegments (inExpression : Bool) {path : Path} (hpath : path.Named)
    (hc : Token.AllNamed c.rest) : Yields (furtherSegments g inExpression path) c Path.Named := by
  refine yields_untilDone hc hpath fun path c hpath hc => Yields.ahead ?_
  refine Yields.skip hc fun third c hc => Yields.ite (fun _ => ?_) fun _ => Yields.pure hpath
  refine Yields.skip hc fun _ c hc => ?_
  exact Yields.bind hc (yields_segment inExpression hpath hc) fun path _ _ hpath =>
    Yields.pure hpath

theorem yields_path (inExpression : Bool) (hc : Token.AllNamed c.rest) :
    Yields (path g inExpression) c Path.Named := by
  refine Yields.skip hc fun leading c hc => ?_
  refine Yields.bind hc (yields_segment inExpression nofun hc) fun path c hc hpath => ?_
  exact yields_furtherSegments inExpression hpath hc

theorem yields_qualifiedPath (inExpression : Bool) (hc : Token.AllNamed c.rest) :
    Yields (qualifiedPath g inExpression) c Path.Named := by
  have hlast : ∀ seen c, Path.Named seen → Token.AllNamed c.rest → Yields (do
      discard <| mark ">"
      discard <| mark "::"
      let first ← segment g inExpression { seen with qualified := true }
      untilDone (fun path => do
        if ← TokenParser.mark? "::" then return .inl (← segment g inExpression path)
        else return .inr path) first) c Path.Named := by
    intro seen c hseen hc
    refine Yields.skip hc fun _ c hc => Yields.skip hc fun _ c hc => ?_
    refine Yields.bind hc (yields_segment inExpression hseen hc) fun first c hc hfirst => ?_
    refine yields_untilDone hc hfirst fun path c hpath hc => Yields.skip hc fun _ c hc => ?_
    refine Yields.ite (fun _ => ?_) fun _ => Yields.pure hpath
    exact Yields.bind hc (yields_segment inExpression hpath hc) fun path _ _ hpath =>
      Yields.pure hpath
  refine Yields.skip hc fun _ c hc => Yields.ite (fun _ => ?_) fun _ => yields_path _ hc
  refine Yields.skip hc fun _ c hc => Yields.skip hc fun _ c hc => ?_
  refine Yields.ite (fun _ => ?_) fun _ => ?_
  · exact Yields.bind hc (yields_path false hc) fun seen c hc hseen => hlast seen c hseen hc
  · exact hlast _ _ (fun _ hsegment => absurd hsegment List.not_mem_nil) hc

/-! ### Atoms -/

theorem yields_pathAtom (structs : Bool) (hc : Token.AllNamed c.rest) :
    Yields (pathAtom g structs) c Expr.Named := by
  refine Yields.bind hc (yields_qualifiedPath true hc) fun path c hc hpath => ?_
  refine Yields.skip hc fun _ c hc => Yields.ite (fun _ => ?_) fun _ => ?_
  · exact Yields.skip hc fun _ c _ => Yields.pure trivial
  · refine Yields.skip hc fun _ c hc => Yields.ite (fun _ => ?_) fun _ => Yields.pure hpath
    exact Yields.skip hc fun _ c _ => Yields.pure trivial

theorem yields_literalAtom : Yields literalAtom c Expr.Named := by
  intro e after hrun
  obtain ⟨⟨token, between⟩, _, hrun⟩ := Option.bind_eq_some_iff.1 hrun
  cases token with
  | literal offset text value =>
    cases hrun
    trivial
  | name offset text =>
    cases hrun
    trivial
  | mark offset c joint => cases hrun
  | group offset delimiter content => cases hrun

variable (h : g.Names)
include h

theorem yields_items_whole (hc : Token.AllNamed c.rest) :
    Yields (items g.whole) c Expr.AllNamed :=
  (yields_items hc fun c hc => h.expression true c hc).mono fun _ hfound =>
    Expr.allNamed_iff.2 hfound

theorem yields_parenAtom (hc : Token.AllNamed c.rest) : Yields (parenAtom g) c Expr.Named := by
  refine yields_group hc fun c hc => Yields.skip hc fun _ c hc => ?_
  refine Yields.ite (fun _ => Yields.pure trivial) fun _ => ?_
  refine Yields.bind hc (h.expression true c hc) fun first c hc hfirst => ?_
  refine Yields.skip hc fun _ c hc => Yields.ite (fun _ => Yields.pure hfirst) fun _ => ?_
  exact Yields.skip hc fun _ c hc => Yields.skip hc fun _ c _ => Yields.pure trivial

theorem yields_listAtom (hc : Token.AllNamed c.rest) : Yields (listAtom g) c Expr.Named := by
  refine yields_group hc fun c hc => Yields.skip hc fun _ c hc => ?_
  refine Yields.ite (fun _ => Yields.pure trivial) fun _ => ?_
  refine Yields.bind hc (h.expression true c hc) fun first c hc hfirst => ?_
  refine Yields.skip hc fun _ c hc => ?_
  refine Yields.ite (fun _ => Yields.pure ⟨hfirst, trivial⟩) fun _ => ?_
  refine Yields.skip hc fun _ c hc => Yields.ite (fun _ => ?_) fun _ => ?_
  · exact Yields.skip hc fun _ c _ => Yields.pure trivial
  · refine Yields.skip hc fun _ c hc => ?_
    exact Yields.bind hc (yields_items_whole h hc) fun items _ _ hitems =>
      Yields.pure ⟨hfirst, hitems⟩

omit h in
theorem yields_wordAtom (structs : Bool) (hc : Token.AllNamed c.rest) :
    Yields (wordAtom g structs) c Expr.Named := by
  refine Yields.ahead (Yields.ite (fun _ => ?_) fun _ => ?_)
  · exact Yields.skip hc fun _ _ _ => Yields.pure trivial
  refine Yields.skip hc fun _ c hc => Yields.ite (fun _ => ?_) fun _ => ?_
  · exact Yields.skip hc fun _ _ _ => Yields.pure trivial
  refine Yields.ite (fun _ => ?_) fun _ => ?_
  · refine Yields.skip hc fun _ c hc => Yields.skip hc fun _ c hc => ?_
    refine Yields.ite (fun _ => ?_) fun _ => ?_
    · exact Yields.skip hc fun _ _ _ => Yields.pure trivial
    · exact Yields.pure trivial
  refine Yields.skip hc fun _ c hc => Yields.ite (fun _ => ?_) fun _ => ?_
  · exact Yields.skip hc fun _ _ _ => Yields.pure trivial
  refine Yields.skip hc fun _ c hc => Yields.ite (fun _ => ?_) fun _ => ?_
  · refine Yields.skip hc fun _ c hc => Yields.skip hc fun _ c hc => Yields.skip hc fun _ c hc => ?_
    exact Yields.skip hc fun _ c hc => Yields.skip hc fun _ _ _ => Yields.pure trivial
  refine Yields.ite (fun _ => ?_) fun _ => ?_
  · exact Yields.skip hc fun _ _ _ => Yields.pure trivial
  refine Yields.skip hc fun _ c hc => Yields.ite (fun _ => Yields.pure trivial) fun _ => ?_
  exact Yields.failure

theorem yields_atomStep (structs : Bool) (hc : Token.AllNamed c.rest) :
    Yields (atomStep g structs) c Expr.Named := by
  refine Yields.ahead (Yields.skip hc fun _ c hc => Yields.ite (fun _ => ?_) fun _ => ?_)
  · exact yields_literalAtom
  refine Yields.skip hc fun _ c hc => Yields.ite (fun _ => ?_) fun _ => ?_
  · refine Yields.skip hc fun _ c hc => Yields.skip hc fun _ c hc => ?_
    exact Yields.skip hc fun _ _ _ => Yields.pure trivial
  refine Yields.ite (fun _ => ?_) fun _ => ?_
  · exact Yields.skip hc fun _ _ _ => Yields.pure trivial
  refine Yields.skip hc fun _ c hc => Yields.ite (fun _ => ?_) fun _ => ?_
  · exact Yields.skip hc fun _ _ _ => Yields.pure trivial
  refine Yields.ite (fun _ => ?_) fun _ => ?_
  · exact Yields.skip hc fun _ _ _ => Yields.pure trivial
  refine Yields.skip hc fun _ c hc => Yields.ite (fun _ => yields_pathAtom structs hc) fun _ => ?_
  refine Yields.ite (fun _ => yields_parenAtom h hc) fun _ => ?_
  refine Yields.ite (fun _ => yields_listAtom h hc) fun _ => ?_
  refine Yields.ite (fun _ => ?_) fun _ => ?_
  · exact Yields.skip hc fun _ _ _ => Yields.pure trivial
  refine Yields.skip hc fun _ c hc => Yields.ite (fun _ => Yields.pure trivial) fun _ => ?_
  exact yields_wordAtom structs hc

/-! ### Accesses and operators -/

omit h in
theorem lt_of_mapM_index? {parts : List (List Char)} {found : List Nat}
    (hfound : parts.mapM index? = some found) : ∀ n ∈ found, n < Nat.pow 2 32 := by
  induction parts generalizing found with
  | nil =>
    cases hfound
    nofun
  | cons part parts ih =>
    rw [List.mapM_cons] at hfound
    obtain ⟨n, hn, hfound⟩ := Option.bind_eq_some_iff.1 hfound
    obtain ⟨more, hmore, hfound⟩ := Option.bind_eq_some_iff.1 hfound
    cases hfound
    intro m hm
    rcases List.mem_cons.1 hm with rfl | hm
    · exact index?_lt hn
    · exact ih hmore m hm

omit h in
theorem yields_positions? (hc : Token.AllNamed c.rest) :
    Yields positions? c fun found => ∀ n ∈ found.1, n < Nat.pow 2 32 := by
  refine Yields.skip hc fun tokens c hc => ?_
  split
  · dsimp only
    split
    next found hfound =>
      refine Yields.skip hc fun _ c hc => Yields.skip hc fun _ c hc => ?_
      refine Yields.skip hc fun _ c _ => ?_
      exact Yields.pure (lt_of_mapM_index? hfound)
    next => exact Yields.failure
  · exact Yields.pure nofun

theorem yields_afterPoint (start : Nat) {base : Expr} (hbase : base.Named)
    (hc : Token.AllNamed c.rest) : Yields (afterPoint g start base) c Expr.Named := by
  refine Yields.bind hc (yields_positions? hc) fun found c hc hfound => ?_
  obtain ⟨positions, more⟩ := found
  have hfields : (positions.foldl (fun e n => Expr.field e (toString n)) base).Named := by
    clear hc
    induction positions generalizing base with
    | nil => exact hbase
    | cons n positions ih =>
      refine ih ⟨hbase, Or.inr ⟨n, hfound n List.mem_cons_self, rfl⟩⟩ fun m hm => ?_
      exact hfound m (List.mem_cons_of_mem n hm)
  refine Yields.ite (fun _ => ?_) fun _ => Yields.pure hfields
  refine Yields.skip hc fun _ c hc => Yields.ite (fun _ => ?_) fun _ => ?_
  · exact Yields.skip hc fun _ c _ => Yields.pure trivial
  generalize positions.foldl (fun e n => Expr.field e (toString n)) base = base at hfields
  refine Yields.ahead (Yields.bind hc (yields_member hc) fun name c' hc' hname => ?_)
  -- only a name can be followed by arguments
  have hmember : Next.name c.rest = true → IsMember name := by
    intro hnamed
    rcases hname with hname | hname
    · exact hname
    · exact absurd hnamed (Bool.eq_false_iff.1 hname.1)
  have hlast : ∀ generic c', (generic = true → IsMember name) → Token.AllNamed c'.rest →
      Yields (do
        if generic || Next.name c.rest && Next.group .paren (← ahead) then
          return .invoke base name (← group .paren (items g.whole))
        else return .field base name) c' Expr.Named := by
    intro generic c' hgeneric hc
    refine Yields.ahead (Yields.ite (fun hcall => ?_) fun _ => ?_)
    · refine Yields.bind hc (yields_group hc fun c hc => yields_items_whole h hc)
        fun arguments _ _ harguments => Yields.pure ⟨hfields, ?_, harguments⟩
      rcases Bool.or_eq_true_iff.1 hcall with hcall | hcall
      · exact hgeneric hcall
      · exact hmember (Bool.and_eq_true_iff.1 hcall).1
    · exact Yields.pure ⟨hfields, hname.imp_right And.right⟩
  have hgeneric : ∀ after, (Next.name c.rest && Next.mark "::" after) = true → IsMember name :=
    fun after hboth => hmember (Bool.and_eq_true_iff.1 hboth).1
  refine Yields.ahead (Yields.ite (fun hboth => ?_) fun hboth => ?_)
  · exact Yields.skip hc' fun _ c hc => hlast _ c (hgeneric _) hc
  · exact hlast _ c' (hgeneric _) hc'

theorem yields_trailers (start : Nat) {e : Expr} (he : e.Named) (hc : Token.AllNamed c.rest) :
    Yields (trailers g start e) c Expr.Named := by
  refine yields_untilDone hc he fun e c he hc => Yields.ahead (Yields.ite (fun _ => ?_) fun _ => ?_)
  · refine Yields.skip hc fun target c hc => ?_
    refine Yields.bind hc (yields_group hc fun c hc => yields_items_whole h hc)
      fun arguments c hc harguments => ?_
    split
    next => exact Yields.pure ⟨he, harguments⟩
    next => exact Yields.pure trivial
  refine Yields.ite (fun _ => ?_) fun _ => ?_
  · refine Yields.skip hc fun _ c hc => ?_
    exact Yields.bind hc (yields_afterPoint h start he hc) fun e _ _ he => Yields.pure he
  refine Yields.ite (fun _ => ?_) fun _ => ?_
  · exact Yields.skip hc fun _ c hc => Yields.skip hc fun _ c hc => Yields.pure trivial
  refine Yields.ite (fun _ => ?_) fun _ => Yields.pure he
  exact Yields.skip hc fun _ c hc => Yields.skip hc fun _ c hc => Yields.pure trivial

theorem yields_operandStep (structs : Bool) (hc : Token.AllNamed c.rest) :
    Yields (operandStep g structs) c Expr.Named := by
  refine Yields.skip hc fun start c hc => Yields.skip hc fun before c hc => ?_
  refine Yields.skip hc fun _ c hc => Yields.ahead (Yields.ite (fun _ => ?_) fun _ => ?_)
  · exact Yields.skip hc fun _ c hc => Yields.skip hc fun _ c hc => Yields.pure trivial
  split
  · refine Yields.skip hc fun offset c hc => ?_
    exact Yields.bind hc (h.operand structs c hc) fun e _ _ he => Yields.pure he
  · refine Yields.skip hc fun first c hc => ?_
    refine Yields.bind hc (yields_atomStep h structs hc) fun e c hc he => ?_
    refine Yields.skip hc fun read c hc => ?_
    refine Yields.bind hc (yields_trailers h first (he.spanning read) hc) fun e c hc he => ?_
    have hlast : ∀ c, Token.AllNamed c.rest → Yields (do
        require !(e.isRange && start < first)
        return e.spanning (← since start)) c Expr.Named := fun c hc =>
      Yields.skip hc fun _ c hc => Yields.skip hc fun read c _ => Yields.pure (he.spanning read)
    exact Yields.ite (fun _ => Yields.skip hc fun _ c hc => hlast c hc) fun _ => hlast c hc

theorem yields_rightOperand (structs : Bool) (level : Nat) (hc : Token.AllNamed c.rest) :
    Yields (rightOperand g structs level) c Expr.Named := by
  refine Yields.skip hc fun start c hc => ?_
  refine Yields.bind hc (h.operand structs c hc) fun e c hc he => ?_
  refine yields_untilDone hc he fun e c he hc => Yields.ahead (Yields.ite (fun _ => ?_) fun _ => ?_)
  · refine Yields.bind hc (h.continued structs start e _ c he hc) fun e c hc he => ?_
    refine Yields.skip hc fun _ c hc => ?_
    exact Yields.ite (fun _ => Yields.pure he) fun _ => Yields.pure he
  · exact Yields.pure he

theorem yields_continuedStep (structs : Bool) (start level : Nat) {e : Expr} (he : e.Named)
    (hc : Token.AllNamed c.rest) : Yields (continuedStep g structs start e level) c Expr.Named := by
  refine yields_untilDone hc he fun left c hleft hc => Yields.ite (fun _ => Yields.pure hleft)
    fun _ => Yields.ahead ?_
  split
  · refine Yields.ite (fun _ => Yields.pure hleft) fun _ => ?_
    refine Yields.skip hc fun _ c hc => Yields.skip hc fun offset c hc => ?_
    exact Yields.bind hc (yields_rightOperand h structs _ hc) fun right _ _ hright =>
      Yields.pure ⟨hleft, hright⟩
  · refine Yields.ite (fun _ => ?_) fun _ => Yields.ite (fun _ => ?_) fun _ =>
      Yields.ite (fun _ => ?_) fun _ => Yields.pure hleft
    · refine Yields.skip hc fun _ c hc => Yields.skip hc fun _ c hc => ?_
      exact Yields.skip hc fun _ c hc => Yields.pure trivial
    · exact Yields.skip hc fun _ c hc => Yields.skip hc fun _ c hc => Yields.pure trivial
    · refine Yields.skip hc fun _ c hc => Yields.skip hc fun _ c hc => ?_
      refine Yields.skip hc fun _ c hc => Yields.skip hc fun _ c hc => ?_
      exact Yields.skip hc fun _ c hc => Yields.pure trivial

theorem Names.step : g.step.Names where
  expression structs c hc := by
    refine Yields.skip hc fun start c hc => ?_
    refine Yields.bind hc (yields_operandStep h structs hc) fun e c hc he => ?_
    exact yields_continuedStep h structs start Level.lowest he hc
  operand structs c hc := yields_operandStep h structs hc
  continued structs start e level c he hc := yields_continuedStep h structs start level he hc

omit h in
theorem names_within (depth : Nat) : (Grammar.within depth).Names := by
  induction depth with
  | zero => exact ⟨fun _ _ _ => Yields.failure, fun _ _ _ => Yields.failure,
      fun _ _ _ _ _ _ _ => Yields.failure⟩
  | succ depth ih => exact ih.step

end Grammar
end ObjectNavigation.Source
