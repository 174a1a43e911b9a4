import ObjectNavigation.Failure

/-!
Outcomes: when a sequence succeeds, and when two of them agree.
-/

namespace ObjectNavigation

theorem bind_eq_ok_iff {ε α β : Type} {first : Except ε α} {next : α → Except ε β} {b : β} :
    first >>= next = .ok b ↔ ∃ a, first = .ok a ∧ next a = .ok b := by
  cases first with
  | error _ => simp [bind, Except.bind]
  | ok _ => simp [bind, Except.bind]

theorem eq_ok_of_toOption {ε α : Type} {outcome : Except ε α} {value : α}
    (h : outcome.toOption = some value) : outcome = .ok value := by
  cases outcome with
  | error error => cases h
  | ok found =>
    cases h
    rfl

/-- What every value among the outcomes has, all values of a list of them have. -/
theorem forall_mem_of_mapM {ι ε α : Type} {outcome : ι → Except ε α} {good : α → Prop}
    (h : ∀ index value, outcome index = .ok value → good value) {indices : List ι}
    {values : List α} (hvalues : indices.mapM outcome = .ok values) :
    ∀ value ∈ values, good value := by
  induction indices generalizing values with
  | nil =>
    cases hvalues
    simp
  | cons index rest ih =>
    rw [List.mapM_cons] at hvalues
    obtain ⟨value, hvalue, hvalues⟩ := bind_eq_ok_iff.1 hvalues
    obtain ⟨others, hothers, hvalues⟩ := bind_eq_ok_iff.1 hvalues
    cases hvalues
    exact List.forall_mem_cons.2 ⟨h index value hvalue, ih hothers⟩

/-- Outcomes that fail alike or succeed with related values. -/
inductive Alike {α : Type} (same : α → α → Prop) :
    Except EvalError α → Except EvalError α → Prop where
  | ok {left right : α} (h : same left right) : Alike same (.ok left) (.ok right)
  | error (error : EvalError) : Alike same (.error error) (.error error)

namespace Alike
variable {α : Type} {same : α → α → Prop} (equivalence : Equivalence same)
  {first second third : Except EvalError α}
include equivalence

theorem symm (h : Alike same first second) : Alike same second first := by
  cases h with
  | ok h => exact .ok (equivalence.symm h)
  | error error => exact .error error

theorem trans (h : Alike same first second) (h' : Alike same second third) :
    Alike same first third := by
  cases h with
  | ok h =>
    cases h' with
    | ok h' => exact .ok (equivalence.trans h h')
  | error error => exact h'

end Alike

theorem alike_eq_iff {α : Type} {left right : Except EvalError α} :
    Alike Eq left right ↔ left = right := by
  constructor
  · rintro (rfl | error) <;> rfl
  · rintro rfl
    cases left with
    | error error => exact .error error
    | ok value => exact .ok rfl

end ObjectNavigation
