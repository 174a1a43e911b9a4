import ObjectNavigation.Node.Body

/-!
Integer arithmetic step by step. An `IntStep` is an operation of two unbounded integers, or a change
of sign. Its offence is the error that stands against it: a zero divisor, or a result that 64 bits
cannot hold. What comes of steps one after another is told by the first that has an offence; where
none has, it is the exact result (`IntStep.conclude`). Operations, folds and negations of 64-bit
integers conclude their steps.
-/

namespace ObjectNavigation

inductive IntStep where
  | combine (op : Operation) (left right : Int)
  | negate (operand : Int)

namespace IntStep

/-- The numbers that 64 bits hold. -/
def InRange (n : Int) : Prop :=
  -9223372036854775808 ≤ n ∧ n < 9223372036854775808

instance (n : Int) : Decidable (InRange n) :=
  inferInstanceAs (Decidable (_ ∧ _))

/-- The result over the unbounded integers; a quotient is cut off towards zero. -/
def result : IntStep → Int
  | combine .add left right => left + right
  | combine .subtract left right => left - right
  | combine .multiply left right => left * right
  | combine .divide left right => left.tdiv right
  | negate operand => -operand

def symbol : IntStep → String
  | combine op _ _ => op.symbol
  | negate _ => "-"

def DividesByZero : IntStep → Prop
  | combine op _ right => op = .divide ∧ right = 0
  | negate _ => False

instance : (step : IntStep) → Decidable step.DividesByZero
  | combine _ _ _ => inferInstanceAs (Decidable (_ ∧ _))
  | negate _ => .isFalse id

/-- The error that stands against a step. -/
def offence (step : IntStep) : Option EvalError :=
  if step.DividesByZero then some .divisionByZero
  else if InRange step.result then none
  else some (.overflow step.symbol)

/-- What comes of steps that lead to this: the first error that stands against one of them, if
there is any. -/
def conclude {α : Type} (steps : List IntStep) (result : α) : Except EvalError α :=
  match steps.findSome? offence with
  | some error => .error error
  | none => .ok result

end IntStep

/-- The integer as a value; it is held exactly if it is in range. -/
def Value.ofInt (n : Int) : Value :=
  .int (.ofInt n)

namespace IntStep
variable {α β : Type} {steps : List IntStep} {exact : Int}

theorem inRange_toInt (n : Int64) : InRange n.toInt :=
  ⟨n.le_toInt, n.toInt_lt⟩

theorem toInt_ofInt (h : InRange exact) : (Int64.ofInt exact).toInt = exact :=
  Int64.toInt_ofInt_of_le h.1 h.2

theorem result_combine (op : Operation) (left right : Int) :
    (combine op left right).result = op.onInts left right := by
  cases op <;> rfl

theorem inRange_result {step : IntStep} (h : step.offence = none) : InRange step.result := by
  unfold offence at h
  split at h
  · cases h
  · split at h
    next hrange => exact hrange
    · cases h

theorem conclude_of_none (h : steps.findSome? offence = none) (result : α) :
    conclude steps result = .ok result := by
  rw [conclude, h]

theorem conclude_eq_error_iff {result : α} {error : EvalError} :
    conclude steps result = .error error ↔ steps.findSome? offence = some error := by
  unfold conclude
  cases steps.findSome? offence <;> simp

theorem conclude_append (steps others : List IntStep) (middle : α) (result : β) :
    conclude (steps ++ others) result =
      conclude steps middle >>= fun _ => conclude others result := by
  unfold conclude
  rw [List.findSome?_append]
  cases steps.findSome? offence <;> rfl

theorem conclude_eq_int_iff (range : steps.findSome? offence = none → InRange exact) {n : Int64} :
    conclude steps (Value.ofInt exact) = .ok (.int n) ↔
      (∀ step ∈ steps, step.offence = none) ∧ n.toInt = exact := by
  rw [← List.findSome?_eq_none_iff]
  cases hfirst : steps.findSome? offence with
  | some error =>
    rw [conclude_eq_error_iff.2 hfirst]
    simp
  | none =>
    rw [conclude_of_none hfirst]
    constructor
    · rintro ⟨⟩
      exact ⟨rfl, toInt_ofInt (range hfirst)⟩
    · rintro ⟨_, rfl⟩
      rw [Value.ofInt, Int64.ofInt_toInt]

end IntStep

/-! ### Operations on 64-bit integers -/

namespace Operation
open IntStep (InRange conclude)

theorem checked_eq_conclude (step : IntStep) (h : ¬ step.DividesByZero) :
    checked step.symbol step.result = conclude [step] (.ofInt step.result) := by
  rw [checked, conclude, List.findSome?_singleton, IntStep.offence, if_neg h]
  by_cases range : InRange step.result
  · rw [if_pos range, Value.exact_eq_some_iff.2 (IntStep.toInt_ofInt range)]
    rfl
  · have hnone : Value.exact step.result = none := by
      rw [Value.exact_eq_none_iff]
      unfold InRange at range
      omega
    rw [if_neg range, hnone]

variable {op : Operation} {left right : Int}

theorem apply_ints (heap : Heap) (hleft : InRange left) (hright : InRange right) :
    op.apply heap (.ofInt left) (.ofInt right) =
      conclude [.combine op left right] (.ofInt (IntStep.combine op left right).result) := by
  have hnumeric : op.apply heap (.ofInt left) (.ofInt right) =
      op.numeric heap (.ofInt left) (.ofInt right) := by
    simp [apply, Value.ofInt, Value.isString]
  have hdivides : (op = divide ∧ Int64.ofInt right = 0) ↔
      (IntStep.combine op left right).DividesByZero := by
    refine and_congr_right fun _ => ?_
    rw [← Int64.toInt_inj, IntStep.toInt_ofInt hright]
    rfl
  rw [hnumeric, Value.ofInt, Value.ofInt, numeric, IntStep.toInt_ofInt hleft,
    IntStep.toInt_ofInt hright, ← IntStep.result_combine]
  split
  next h =>
    rw [conclude, List.findSome?_singleton, IntStep.offence, if_pos (hdivides.1 h)]
  next h => exact checked_eq_conclude (.combine op left right) (mt hdivides.2 h)

def foldFrom (op : Operation) : Int → List Int → Int
  | n, [] => n
  | left, right :: rest => foldFrom op (IntStep.combine op left right).result rest

/-- The left fold over the unbounded integers. -/
def foldInts (op : Operation) : List Int → Int
  | [] => 0
  | first :: rest => op.foldFrom first rest

def stepsFrom (op : Operation) : Int → List Int → List IntStep
  | _, [] => []
  | left, right :: rest =>
    .combine op left right :: stepsFrom op (IntStep.combine op left right).result rest

def foldSteps (op : Operation) : List Int → List IntStep
  | [] => []
  | first :: rest => op.stepsFrom first rest

theorem inRange_foldFrom (hleft : InRange left) {rest : List Int}
    (h : (op.stepsFrom left rest).findSome? IntStep.offence = none) :
    InRange (op.foldFrom left rest) := by
  induction rest generalizing left with
  | nil => exact hleft
  | cons right rest ih =>
    rw [List.findSome?_eq_none_iff] at h
    obtain ⟨hfirst, hlater⟩ := List.forall_mem_cons.1 h
    exact ih (IntStep.inRange_result hfirst) (List.findSome?_eq_none_iff.2 hlater)

end Operation

open IntStep (InRange conclude)

theorem Body.fold_ints {op : Operation} (heap : Heap) {first : Int} (hfirst : InRange first)
    {rest : List Int} (hrest : ∀ n ∈ rest, InRange n) :
    fold op heap (.ofInt first) (rest.map .ofInt) =
      conclude (op.stepsFrom first rest) (.ofInt (op.foldFrom first rest)) := by
  induction rest generalizing first with
  | nil => rfl
  | cons next rest ih =>
    obtain ⟨hnext, hrest⟩ := List.forall_mem_cons.1 hrest
    have hsteps : op.stepsFrom first (next :: rest) = [.combine op first next] ++
        op.stepsFrom (IntStep.combine op first next).result rest := rfl
    rw [List.map_cons, fold, Operation.apply_ints heap hfirst hnext, hsteps, Operation.foldFrom,
      IntStep.conclude_append _ _ (Value.ofInt (IntStep.combine op first next).result)]
    cases hoffence : [IntStep.combine op first next].findSome? IntStep.offence with
    | some error =>
      rw [IntStep.conclude_eq_error_iff.2 hoffence]
      rfl
    | none =>
      rw [IntStep.conclude_of_none hoffence]
      rw [List.findSome?_eq_none_iff] at hoffence
      exact ih (IntStep.inRange_result (hoffence _ List.mem_cons_self)) hrest

theorem Value.negate_int (heap : Heap) {n : Int} (h : InRange n) :
    (Value.ofInt n).negate heap = conclude [.negate n] (.ofInt (-n)) := by
  rw [Value.ofInt, negate, IntStep.toInt_ofInt h]
  exact Operation.checked_eq_conclude (.negate n) id

end ObjectNavigation
