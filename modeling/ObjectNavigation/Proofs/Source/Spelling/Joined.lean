import ObjectNavigation.Proofs.Source.Spelling.Operand

/-!
Reading back operators. The operands of one operation are joined from the left, and since operators
among them are in brackets, none of them goes on beyond the next sign.
-/

namespace ObjectNavigation.Source
open TokenParser

open Grammar

variable {t : Tree} {tokens rest : List Token} {structs : Bool}

/-! ### Operators -/

theorem SpellsOperand.negate (h : SpellsOperand t tokens) (offset : Nat) (joint : Bool) :
    SpellsOperand (.node .negate [some t]) (.mark offset '-' joint :: tokens) where
  ne_nil := nofun
  reads {level structs rest} hlevel hrest := by
    have hsize := Token.listSize_pos h.ne_nil
    change 1 + Token.listSize tokens ≤ level + 1 at hlevel
    obtain ⟨level, rfl⟩ : ∃ n, level = n + 1 := ⟨level - 1, by omega⟩
    have hfind : (["*", "!", "-"].find? fun operator =>
        Next.mark operator (.mark offset '-' joint :: (tokens ++ rest))) = some "-" := rfl
    refine Reads.here fun _ => Reads.ahead (Reads.bind (reads_attributes rfl) fun _ _ => ?_)
    refine Reads.ahead (Reads.otherwise rfl ?_)
    rw [List.cons_append, hfind]
    refine Reads.bind (reads_mark rfl) fun _ _ => ?_
    refine Reads.bind (h.reads (by omega) hrest) fun e he => Reads.pure ?_
    rw [Expr.Means, Expr.normal?, if_pos rfl, he]
    rfl

def sign : Operation → Char
  | .add => '+'
  | .subtract => '-'
  | .multiply => '*'
  | .divide => '/'

/-- How strongly an operation binds. -/
def strength : Operation → Nat
  | .add | .subtract => 10
  | .multiply | .divide => 11

theorem binaryOperator?_sign (op : Operation) (offset : Nat) (rest : List Token) :
    binaryOperator? (.mark offset (sign op) false :: rest) = some (op.symbol, strength op) := by
  cases op <;> rfl

theorem endsOperand_sign (op : Operation) (offset : Nat) (rest : List Token) :
    EndsOperand (.mark offset (sign op) false :: rest) := by
  cases op <;> exact ⟨⟨⟨rfl, rfl, rfl, rfl⟩, rfl, rfl, rfl⟩, rfl⟩

theorem reads_sign (op : Operation) (offset : Nat) (rest : List Token) :
    Reads (TokenParser.mark op.symbol) (.mark offset (sign op) false :: rest) rest
      (fun _ => True) := by
  cases op <;> exact reads_mark rfl

/-- Tokens that spell operands with an operator before each. -/
inductive SpellsOperands (op : Operation) : List Tree → List Token → Prop
  | nil : SpellsOperands op [] []
  | cons {t : Tree} {trees : List Tree} {tokens rest : List Token} (h : SpellsOperand t tokens)
    (offset : Nat) (hrest : SpellsOperands op trees rest) :
    SpellsOperands op (t :: trees) (.mark offset (sign op) false :: (tokens ++ rest))

def combined (op : Operation) (left right : Tree) : Tree :=
  .joined (.arithmetic op) [left, right]

theorem combined_eq {op : Operation} (hflattens : (Body.arithmetic op).flattens = true)
    {left right : Tree} (hkind : right.kind ≠ op.kind) :
    combined op left right = .node (.arithmetic op) (left.spread op.kind ++ [some right]) := by
  have hspread : right.spread op.kind = [some right] := if_neg hkind
  rw [combined, Tree.joined, hflattens]
  simp [Body.kind, hspread]

theorem foldl_combined_node {op : Operation} (hflattens : (Body.arithmetic op).flattens = true)
    {trees : List Tree} (hkinds : ∀ u ∈ trees, u.kind ≠ op.kind) (slots : List (Option Tree)) :
    trees.foldl (combined op) (.node (.arithmetic op) slots) =
      .node (.arithmetic op) (slots ++ trees.map some) := by
  induction trees generalizing slots with
  | nil => simp
  | cons u trees ih =>
    have hspread : Tree.spread op.kind (.node (.arithmetic op) slots) = slots := if_pos rfl
    rw [List.foldl_cons, combined_eq hflattens (hkinds u List.mem_cons_self), hspread,
      ih fun v hv => hkinds v (List.mem_cons_of_mem u hv), List.append_assoc]
    rfl

theorem foldl_combined {op : Operation} {trees : List Tree} (hsome : trees ≠ [])
    (hflat : (Body.arithmetic op).flattens = true → ∀ u ∈ t :: trees, u.kind ≠ op.kind)
    (hbinary : (Body.arithmetic op).flattens = false → (t :: trees).length = 2) :
    trees.foldl (combined op) t = .node (.arithmetic op) ((t :: trees).map some) := by
  cases hflattens : (Body.arithmetic op).flattens with
  | false =>
    obtain ⟨u, rfl⟩ := List.length_eq_one_iff.1 (Nat.succ.inj (hbinary hflattens))
    rw [List.foldl_cons, combined, Tree.joined, hflattens]
    rfl
  | true =>
    have hkind := hflat hflattens
    obtain ⟨u, trees, rfl⟩ := List.exists_cons_of_ne_nil hsome
    have hspread : t.spread op.kind = [some t] := if_neg (hkind t List.mem_cons_self)
    rw [List.foldl_cons, combined_eq hflattens (hkind u (by simp)), hspread,
      foldl_combined_node hflattens fun v hv => hkind v (by simp [hv])]
    rfl

theorem means_binary (op : Operation) (offset : Nat) {left right : Expr} {t u : Tree}
    (hleft : left.Means t) (hright : right.Means u) :
    (Expr.binary op.symbol offset left right).Means (combined op t u) := by
  rw [Expr.Means, Expr.normal?_binary, hleft, hright, combined, Expr.joined_binary,
    Expr.operation?_symbol]
  cases op <;> rfl

theorem SpellsOperands.ends {op : Operation} {trees : List Tree}
    (h : SpellsOperands op trees tokens) (hrest : EndsItem rest) : EndsOperand (tokens ++ rest) ∧
      (levelAhead (tokens ++ rest) = Level.lowest ∨ levelAhead (tokens ++ rest) = strength op) := by
  cases h with
  | nil =>
    refine ⟨hrest.operand, Or.inl ?_⟩
    cases hrest <;> rfl
  | cons h offset hrest =>
    refine ⟨endsOperand_sign op offset _, Or.inr ?_⟩
    rw [List.cons_append, levelAhead, binaryOperator?_sign]

theorem reads_rightOperand {op : Operation} (h : SpellsOperand t tokens) {level : Nat}
    (hlevel : Token.listSize tokens ≤ level + 1) (hrest : EndsOperand rest)
    (hahead : levelAhead rest = Level.lowest ∨ levelAhead rest = strength op) :
    Reads (rightOperand (within (level + 1)) structs (strength op)) (tokens ++ rest) rest
      (·.Means t) := by
  refine Reads.here fun start => Reads.bind (h.reads hlevel hrest) fun e he => ?_
  refine Reads.last (Reads.ahead (Reads.otherwise ?_ (Reads.pure ⟨e, rfl, he⟩)))
  rcases hahead with hahead | hahead <;> rw [hahead] <;> cases op <;> rfl

theorem SpellsOperands.reads {op : Operation} {trees : List Tree}
    (h : SpellsOperands op trees tokens) {level start : Nat}
    (hlevel : Token.listSize tokens ≤ level + 1) (hrest : EndsItem rest) {left : Expr}
    (hleft : left.Means t) :
    Reads (continuedStep (within level) true start left Level.lowest) (tokens ++ rest) rest
      (·.Means (trees.foldl (combined op) t)) := by
  induction h generalizing t left with
  | nil =>
    refine Reads.last (Reads.otherwise hleft.isRange (Reads.ahead ?_))
    cases hrest <;> exact Reads.pure ⟨left, rfl, hleft⟩
  | @cons operand trees tokens more h offset hmore ih =>
    have hsize := Token.listSize_pos h.ne_nil
    change 1 + Token.listSize (tokens ++ more) ≤ level + 1 at hlevel
    rw [Token.listSize_append] at hlevel
    obtain ⟨level, rfl⟩ : ∃ n, level = n + 1 := ⟨level - 1, by omega⟩
    obtain ⟨hends, hahead⟩ := hmore.ends hrest
    -- One round reads an operator and the operand to its right.
    have hstep : Reads (continuation (within (level + 1)) true start Level.lowest left)
        (.mark offset (sign op) false :: (tokens ++ (more ++ rest))) (more ++ rest) fun result =>
          ∃ e, result = .inl e ∧ e.Means (combined op t operand) := by
      refine Reads.otherwise hleft.isRange (Reads.ahead ?_)
      rw [binaryOperator?_sign]
      have hlowest : ¬ strength op < Level.lowest := Nat.not_lt_zero _
      have hcompare : (!(strength op == Level.compare && compares left)) = true := by
        cases op <;> rfl
      dsimp only
      rw [if_neg hlowest]
      refine Reads.require hcompare (Reads.bind (reads_sign op offset _) fun _ _ => ?_)
      refine Reads.bind (reads_rightOperand h (by omega) hends hahead) fun right hright => ?_
      exact Reads.pure ⟨_, rfl, means_binary op _ hleft hright⟩
    rw [List.cons_append, List.append_assoc]
    refine Reads.again ?_ hstep fun e he => ih (by omega) he
    simp only [List.length_cons, List.length_append]
    omega

theorem SpellsOperand.arithmetic {op : Operation} {trees : List Tree} {others : List Token}
    (h : SpellsOperand t tokens) (hothers : SpellsOperands op trees others) :
    Spells (trees.foldl (combined op) t) (tokens ++ others) where
  ne_nil := List.append_ne_nil_of_left_ne_nil h.ne_nil _
  reads hlevel hrest := by
    rw [Token.listSize_append] at hlevel
    rw [List.append_assoc]
    refine Reads.here fun start => ?_
    refine Reads.bind (h.reads (by omega) (hothers.ends hrest).1) fun e he => ?_
    exact hothers.reads (by omega) hrest he

theorem Spells.expression? (h : Spells t tokens) :
    ∃ e, expression? tokens = some e ∧ e.normal? = some t := by
  have hsize := Token.listSize_pos h.ne_nil
  obtain ⟨level, hlevel⟩ : ∃ n, 2 * Token.listSize tokens + 1 = n + 1 := ⟨_, rfl⟩
  obtain ⟨e, copy, hrun, he⟩ := h.reads_last (by omega : Token.listSize tokens ≤ level + 1) []
  refine ⟨e, ?_, he⟩
  rw [Source.expression?, hlevel]
  change (((within level).expressionStep true).run ⟨tokens, []⟩).bind _ = _
  rw [hrun]
  rfl

end ObjectNavigation.Source
