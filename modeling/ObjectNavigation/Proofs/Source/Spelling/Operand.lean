import ObjectNavigation.Proofs.Source.Formed
import ObjectNavigation.Proofs.Source.Spelling.Path

/-!
Reading back operands. Tokens spell a tree at the beginning of an operand if they are read as an
expression that stands for the tree, whatever is then read after them; as an operand, if an operator
may follow; and as a whole, if a comma may. Each bracket takes one level of the grammar, which the
number of tokens makes up for.
-/

namespace ObjectNavigation.Source
open TokenParser

variable {t : Tree} {tokens rest : List Token} {structs : Bool} {g : Grammar}

/-! ### The tree that is meant -/

namespace Expr

/-- Whether an expression stands for a tree. -/
def Means (t : Tree) (e : Expr) : Prop :=
  e.normal? = some t

theorem Means.spanning {e : Expr} (h : e.Means t) (read : List Token) :
    (e.spanning read).Means t := by
  cases e with
  | other shape tokens => cases h
  | _ => exact h

theorem Means.shape {e : Expr} (h : e.Means t) : e.shape = .plain := by
  cases e with
  | other shape tokens => cases h
  | _ => rfl

theorem Means.isRange {e : Expr} (h : e.Means t) : e.isRange = false := by
  rw [Expr.isRange, h.shape]
  rfl

end Expr

namespace Token

theorem size_pos (token : Token) : 0 < token.size := by
  cases token with
  | group offset delimiter content => rw [size]; omega
  | _ => exact Nat.one_pos

theorem listSize_append (tokens others : List Token) :
    listSize (tokens ++ others) = listSize tokens + listSize others := by
  induction tokens with
  | nil => simp [listSize]
  | cons token tokens ih => rw [List.cons_append, listSize, listSize, ih, Nat.add_assoc]

theorem listSize_pos (h : tokens ≠ []) : 0 < listSize tokens := by
  cases tokens with
  | nil => exact absurd rfl h
  | cons token rest => exact Nat.lt_of_lt_of_le token.size_pos (Nat.le_add_right _ _)

end Token

namespace Grammar

theorem reads_attributes (h : Next.mark "#" tokens = false) :
    Reads (attributes g) tokens tokens (fun _ => True) :=
  Reads.last (Reads.ahead (Reads.otherwise h (Reads.pure ⟨(), rfl, trivial⟩)))

theorem mark_eq_false {token : Token} (h : ∀ offset c joint, token ≠ .mark offset c joint)
    (text : String) (htext : text.toList ≠ []) : Next.mark text (token :: rest) = false := by
  obtain ⟨c, cs, hcs⟩ := List.exists_cons_of_ne_nil htext
  rw [Next.mark, hcs]
  cases token with
  | mark offset c joint => exact absurd rfl (h offset c joint)
  | _ => cases cs <;> rfl

/-- An operand that starts with no mark is an atom with what follows it. -/
theorem reads_operandStep {mid : List Token} {p : Expr → Prop}
    (hhead : ∀ text : String, text.toList ≠ [] → Next.mark text tokens = false)
    (hatom : Reads (atomStep g structs) tokens mid p) (hspan : ∀ e read, p e → p (e.spanning read))
    (htrailers : ∀ start e, p e → Reads (trailers g start e) mid rest (·.Means t)) :
    Reads (operandStep g structs) tokens rest (·.Means t) := by
  refine Reads.here fun start => Reads.ahead ?_
  refine Reads.bind (reads_attributes (hhead "#" (by decide))) fun _ _ => Reads.ahead ?_
  refine Reads.otherwise (hhead "&" (by decide)) ?_
  have hfind : (["*", "!", "-"].find? fun operator => Next.mark operator tokens) = none := by
    rw [List.find?_eq_none]
    intro operator hoperator
    refine Bool.eq_false_iff.1 (hhead operator ?_)
    revert operator
    decide
  rw [hfind]
  refine Reads.here fun first => Reads.bind hatom fun e he => Reads.since fun read => ?_
  refine Reads.bind (htrailers first _ (hspan e read he)) fun e he => ?_
  refine Reads.otherwise (by rw [he.shape]; rfl) (Reads.require (by rw [he.isRange]; rfl) ?_)
  exact Reads.since fun read => Reads.pure (he.spanning read)

end Grammar

/-! ### What spells a tree -/

open Grammar

/-- Tokens from which an operand is read that goes on from a tree. -/
structure Leads (t : Tree) (tokens : List Token) : Prop where
  ne_nil : tokens ≠ []
  reads {level : Nat} {structs : Bool} {rest last : List Token} {operand : Tree}
    (hlevel : Token.listSize tokens ≤ level + 1) (hrest : EndsAccess rest)
    (h : ∀ start e, e.Means t →
      Reads (trailers (within level) start e) rest last (·.Means operand)) :
    Reads (operandStep (within level) structs) (tokens ++ rest) last (·.Means operand)

/-- Tokens that spell a tree as an operand. -/
structure SpellsOperand (t : Tree) (tokens : List Token) : Prop where
  ne_nil : tokens ≠ []
  reads {level : Nat} {structs : Bool} {rest : List Token}
    (hlevel : Token.listSize tokens ≤ level + 1) (hrest : EndsOperand rest) :
    Reads (operandStep (within level) structs) (tokens ++ rest) rest (·.Means t)

/-- Tokens that spell a tree as a whole or in brackets. -/
structure Spells (t : Tree) (tokens : List Token) : Prop where
  ne_nil : tokens ≠ []
  reads {level : Nat} {rest : List Token} (hlevel : Token.listSize tokens ≤ level + 1)
    (hrest : EndsItem rest) :
    Reads (expressionStep (within level) true) (tokens ++ rest) rest (·.Means t)

theorem reads_trailers_nothing {start : Nat} {e : Expr} (he : e.Means t)
    (hrest : EndsOperand rest) : Reads (trailers g start e) rest rest (·.Means t) := by
  refine Reads.last (Reads.ahead (Reads.otherwise hrest.paren (Reads.otherwise ?_ ?_)))
  · rw [hrest.point, Bool.false_and, Bool.false_and]
  · refine Reads.otherwise hrest.bracket (Reads.otherwise ?_ (Reads.pure ⟨e, rfl, he⟩))
    rw [hrest.question, Bool.false_and]

theorem Leads.operand (h : Leads t tokens) : SpellsOperand t tokens where
  ne_nil := h.ne_nil
  reads hlevel hrest :=
    h.reads hlevel hrest.toEndsAccess fun _ _ he => reads_trailers_nothing he hrest

theorem SpellsOperand.whole (h : SpellsOperand t tokens) : Spells t tokens where
  ne_nil := h.ne_nil
  reads hlevel hrest := by
    refine Reads.here fun start => Reads.bind (h.reads hlevel hrest.operand) fun e he => ?_
    refine Reads.last (Reads.otherwise he.isRange (Reads.ahead ?_))
    cases hrest <;> exact Reads.pure ⟨e, rfl, he⟩

/-! ### Leaves -/

theorem Leads.of_atom {token : Token} (hhead : ∀ offset c joint, token ≠ .mark offset c joint)
    (h : ∀ level structs rest, Token.listSize [token] ≤ level + 1 → EndsAccess rest →
      Reads (atomStep (within level) structs) (token :: rest) rest (·.Means t)) :
    Leads t [token] where
  ne_nil := nofun
  reads hlevel hrest htrailers :=
    reads_operandStep (mark_eq_false hhead) (h _ _ _ hlevel hrest)
      (fun _ read he => he.spanning read) htrailers

theorem leads_literal {value : Literal} {constant : Value} (offset : Nat) (text : String)
    (h : value.constant? = some constant) :
    Leads (.node (.const constant) []) [.literal offset text value] := by
  refine Leads.of_atom nofun fun level structs rest _ _ => ?_
  refine Reads.ahead (Reads.second (Reads.chosen rfl (Reads.bind (reads_token _ _) ?_)))
  rintro _ rfl
  exact Reads.pure (Option.map_eq_some_iff.2 ⟨constant, h, rfl⟩)

theorem leads_bool (offset : Nat) (b : Bool) :
    Leads (.node (.const (.bool b)) []) [.name offset (if b then "true" else "false")] := by
  refine Leads.of_atom nofun fun level structs rest _ _ => ?_
  refine Reads.ahead (Reads.second (Reads.chosen ?_ (Reads.bind (reads_token _ _) ?_)))
  · cases b <;> rfl
  · rintro _ rfl
    cases b <;> exact Reads.pure rfl

theorem leads_name {name : String} (offset : Nat) (hname : IsSegment name) (htry : name ≠ "try") :
    Leads (.node (if name = "null" then .const .null else .property name) [])
      [.name offset name] := by
  refine Leads.of_atom nofun fun level structs rest _ hrest => ?_
  have hstart : [name] ≠ ["try"] := fun heq => htry (List.singleton_inj.1 heq)
  refine (reads_atomStep_path (.one offset hname) hstart hrest.toEndsPath).mono ?_
  rintro _ ⟨copy, rfl⟩
  rfl

/-! ### Brackets -/

theorem reads_atomStep_group {delimiter : Delimiter} {offset : Nat} {content : List Token}
    {p : Expr → Prop} (hbrace : delimiter ≠ .brace)
    (h : Reads (if delimiter = .paren then parenAtom g else listAtom g)
      (.group offset delimiter content :: rest) rest p) :
    Reads (atomStep g structs) (.group offset delimiter content :: rest) rest p := by
  have hclosure : Reads closureAhead (.group offset delimiter content :: rest)
      (.group offset delimiter content :: rest) (· = false) :=
    Reads.ahead (Reads.second (Reads.pure rfl))
  have hpath : Reads pathAhead (.group offset delimiter content :: rest)
      (.group offset delimiter content :: rest) (· = false) :=
    Reads.ahead (Reads.second (Reads.pure rfl))
  refine Reads.ahead (Reads.second (Reads.otherwise rfl (Reads.third (Reads.otherwise rfl ?_))))
  refine Reads.otherwise rfl (Reads.bind hclosure fun _ hclosure => ?_)
  subst hclosure
  refine Reads.otherwise rfl (Reads.otherwise rfl (Reads.bind hpath fun _ hpath => ?_))
  subst hpath
  refine Reads.otherwise rfl ?_
  cases delimiter with
  | paren => exact Reads.chosen rfl h
  | bracket => exact Reads.otherwise rfl (Reads.chosen rfl h)
  | brace => exact absurd rfl hbrace

theorem isEmpty_append_eq_false (h : tokens ≠ []) : (tokens ++ rest).isEmpty = false := by
  rw [List.isEmpty_eq_false_iff]
  exact List.append_ne_nil_of_left_ne_nil h rest

theorem Spells.reads_last (h : Spells t tokens) {level : Nat}
    (hlevel : Token.listSize tokens ≤ level + 1) :
    Reads (expressionStep (within level) true) tokens [] (·.Means t) := by
  have hwhole := h.reads hlevel .nil
  rwa [List.append_nil] at hwhole

theorem Spells.paren {content : List Token} (h : Spells t content) (offset : Nat) :
    Leads t [.group offset .paren content] := by
  refine Leads.of_atom nofun fun level structs rest hlevel _ => reads_atomStep_group nofun ?_
  have hsize := Token.listSize_pos h.ne_nil
  rw [Token.listSize, Token.size, Token.listSize] at hlevel
  obtain ⟨level, rfl⟩ : ∃ n, level = n + 1 := ⟨level - 1, by omega⟩
  refine reads_group (Reads.atEnd (Reads.otherwise (List.isEmpty_eq_false_iff.2 h.ne_nil) ?_))
  exact Reads.bind (h.reads_last (by omega)) fun _ he => Reads.atEnd (Reads.pure he)

/-- The tokens of trees with commas between them. -/
inductive SpellsAll : List Tree → List Token → Prop
  | nil : SpellsAll [] []
  | one {t : Tree} {tokens : List Token} (h : Spells t tokens) : SpellsAll [t] tokens
  | more {t next : Tree} {trees : List Tree} {tokens rest : List Token} (h : Spells t tokens)
    (offset : Nat) (hrest : SpellsAll (next :: trees) rest) :
    SpellsAll (t :: next :: trees) (tokens ++ .mark offset ',' false :: rest)

theorem normalAll?_concat {es : List Expr} {trees : List Tree} {e : Expr}
    (hes : Expr.normalAll? es = some trees) (he : e.Means t) :
    Expr.normalAll? (es ++ [e]) = some (trees ++ [t]) := by
  induction es generalizing trees with
  | nil =>
    cases hes
    rw [List.nil_append, Expr.normalAll?, he]
    rfl
  | cons first es ih =>
    obtain ⟨tree, hfirst, hes⟩ := Option.bind_eq_some_iff.1 hes
    obtain ⟨more, hmore, hes⟩ := Option.bind_eq_some_iff.1 hes
    cases hes
    rw [List.cons_append, Expr.normalAll?, hfirst, ih hmore]
    rfl

theorem normalAll?_cons {es : List Expr} {trees : List Tree} {e : Expr} (he : e.Means t)
    (hes : Expr.normalAll? es = some trees) : Expr.normalAll? (e :: es) = some (t :: trees) := by
  rw [Expr.normalAll?, he, hes]
  rfl

theorem means_list {es : List Expr} {trees : List Tree} (h : Expr.normalAll? es = some trees) :
    (Expr.list es).Means (.node .list (trees.map some)) := by
  rw [Expr.Means, Expr.normal?, h]
  rfl

theorem SpellsAll.reads_from {trees before : List Tree} (h : SpellsAll trees tokens) {level : Nat}
    (hlevel : Token.listSize tokens ≤ level + 1) {found : List Expr}
    (hfound : Expr.normalAll? found.reverse = some before) :
    Reads (untilDone (oneItem (expressionStep (within level) true)) found) tokens []
      (Expr.normalAll? · = some (before ++ trees)) := by
  induction h generalizing before found with
  | nil =>
    refine Reads.last (Reads.atEnd (Reads.chosen rfl (Reads.pure ⟨_, rfl, ?_⟩)))
    rwa [List.append_nil]
  | one h =>
    refine Reads.last (Reads.atEnd (Reads.otherwise (List.isEmpty_eq_false_iff.2 h.ne_nil) ?_))
    refine Reads.bind (h.reads_last hlevel) fun e he => Reads.atEnd (Reads.chosen rfl ?_)
    refine Reads.pure ⟨_, rfl, ?_⟩
    rw [List.reverse_cons]
    exact normalAll?_concat hfound he
  | @more t next trees tokens rest h offset hrest ih =>
    rw [Token.listSize_append, Token.listSize] at hlevel
    -- One round reads an item and the comma after it.
    have hstep : Reads (oneItem (expressionStep (within level) true) found)
        (tokens ++ .mark offset ',' false :: rest) rest fun result =>
          ∃ found, result = .inl found ∧
            Expr.normalAll? found.reverse = some (before ++ [t]) := by
      refine Reads.atEnd (Reads.otherwise (isEmpty_append_eq_false h.ne_nil) ?_)
      refine Reads.bind (h.reads (by omega) (.comma offset rest)) fun e he => Reads.atEnd ?_
      refine Reads.otherwise rfl (Reads.bind (Reads.discard (reads_mark rfl)) fun _ _ => ?_)
      refine Reads.pure ⟨_, rfl, ?_⟩
      rw [List.reverse_cons]
      exact normalAll?_concat hfound he
    refine Reads.again ?_ hstep fun found hfound => ?_
    · simp only [List.length_append, List.length_cons]
      omega
    · have hlast := ih (by omega) hfound
      rwa [List.append_assoc] at hlast

theorem SpellsAll.reads {trees : List Tree} (h : SpellsAll trees tokens) {level : Nat}
    (hlevel : Token.listSize tokens ≤ level + 1) :
    Reads (items (expressionStep (within level) true)) tokens []
      (Expr.normalAll? · = some trees) := by
  have hnothing : Expr.normalAll? ([] : List Expr).reverse = some [] := rfl
  exact h.reads_from hlevel hnothing

theorem SpellsAll.list {trees : List Tree} {content : List Token} (h : SpellsAll trees content)
    (offset : Nat) : Leads (.node .list (trees.map some)) [.group offset .bracket content] := by
  refine Leads.of_atom nofun fun level structs rest hlevel _ => reads_atomStep_group nofun ?_
  rw [Token.listSize, Token.size, Token.listSize] at hlevel
  refine reads_group ?_
  cases h with
  | nil => exact Reads.atEnd (Reads.chosen rfl (Reads.pure rfl))
  | one h =>
    have hsize := Token.listSize_pos h.ne_nil
    obtain ⟨level, rfl⟩ : ∃ n, level = n + 1 := ⟨level - 1, by omega⟩
    refine Reads.atEnd (Reads.otherwise (List.isEmpty_eq_false_iff.2 h.ne_nil) ?_)
    refine Reads.bind (h.reads_last (by omega)) fun e he => Reads.atEnd (Reads.pure ?_)
    exact means_list (normalAll?_cons he rfl)
  | @more t next trees tokens rest h offset hrest =>
    have hsize := Token.listSize_pos h.ne_nil
    rw [Token.listSize_append, Token.listSize] at hlevel
    obtain ⟨level, rfl⟩ : ∃ n, level = n + 1 := ⟨level - 1, by omega⟩
    refine Reads.atEnd (Reads.otherwise (isEmpty_append_eq_false h.ne_nil) ?_)
    refine Reads.bind (h.reads (by omega) (.comma offset rest)) fun e he => Reads.atEnd ?_
    refine Reads.otherwise rfl (Reads.bind (reads_mark?_absent rfl) fun _ hmark => ?_)
    subst hmark
    refine Reads.otherwise rfl (Reads.bind (Reads.discard (reads_mark rfl)) fun _ _ => ?_)
    refine Reads.bind (hrest.reads (by omega)) fun es hes => Reads.pure ?_
    exact means_list (normalAll?_cons he hes)

theorem SpellsAll.call {names : List String} {path content : List Token} {trees : List Tree}
    {body : Body} (h : SpellsAll trees content) (hpath : SpellsPath names path)
    (hstart : names ≠ ["try"]) (hbody : callBody names = some body) (offset : Nat) :
    Leads (.node body (trees.map some)) (path ++ [.group offset .paren content]) where
  ne_nil := List.append_ne_nil_of_right_ne_nil _ nofun
  reads {level structs rest last operand} hlevel hrest htrailers := by
    have hsize : 0 < Token.listSize path := by
      cases hpath <;> exact Token.listSize_pos nofun
    rw [Token.listSize_append, Token.listSize, Token.size, Token.listSize] at hlevel
    obtain ⟨level, rfl⟩ : ∃ n, level = n + 1 := ⟨level - 1, by omega⟩
    rw [List.append_assoc]
    refine reads_operandStep ?_ (reads_atomStep_path hpath hstart ⟨rfl, rfl, rfl, rfl⟩) ?_ ?_
    · cases hpath <;> exact mark_eq_false nofun
    · rintro _ read ⟨copy, rfl⟩
      exact ⟨read, rfl⟩
    · rintro start _ ⟨copy, rfl⟩
      have hstep : Reads (trailer (within (level + 1)) start (.path names (names.length == 1) copy))
          (.group offset .paren content :: rest) rest fun result =>
            ∃ e, result = .inl e ∧ e.Means (.node body (trees.map some)) := by
        refine Reads.ahead (Reads.chosen rfl (Reads.since fun target => ?_))
        refine Reads.bind (reads_group (h.reads (by omega))) fun es hes => Reads.pure ⟨_, rfl, ?_⟩
        rw [Expr.Means, Expr.normal?_call, hbody, hes]
        rfl
      exact Reads.again (by simp) hstep fun e he => htrailers start e he

end ObjectNavigation.Source
