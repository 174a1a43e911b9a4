import ObjectNavigation.Node.Body

/-!
The errors of operations on values: operands of the wrong type, a result out of range and a zero
divisor are all there is.
-/

namespace ObjectNavigation

/-- An operation on values can end with the error. -/
inductive EvalError.OfOperation : EvalError → Prop where
  | typeMismatch (expected got : String) : OfOperation (.typeMismatch expected got)
  | invalidOperands (operator left right : String) :
      OfOperation (.invalidOperands operator left right)
  | overflow (operator : String) : OfOperation (.overflow operator)
  | divisionByZero : OfOperation .divisionByZero

theorem Operation.ofOperation_checked {symbol : String} {n : Int} {error : EvalError}
    (h : checked symbol n = .error error) : error.OfOperation := by
  unfold checked at h
  split at h
  next => cases h
  next => cases h; exact .overflow symbol

theorem Operation.ofOperation_numeric {op : Operation} {heap : Heap} {left right : Value}
    {error : EvalError} (h : op.numeric heap left right = .error error) : error.OfOperation := by
  unfold numeric at h
  split at h
  next =>
    split at h
    next => cases h; exact .divisionByZero
    next => exact ofOperation_checked h
  next =>
    split at h
    next => cases h
    next => cases h; exact .invalidOperands _ _ _

theorem Operation.ofOperation_apply {op : Operation} {heap : Heap} {left right : Value}
    {error : EvalError} (h : op.apply heap left right = .error error) : error.OfOperation := by
  unfold apply at h
  split at h
  next => cases h
  next => exact ofOperation_numeric h

theorem Value.ofOperation_negate {heap : Heap} {value : Value} {error : EvalError}
    (h : value.negate heap = .error error) : error.OfOperation := by
  cases value with
  | int n => exact Operation.ofOperation_checked h
  | float x => cases h
  | _ => cases h; exact .typeMismatch _ _

theorem Body.ofOperation_fold {op : Operation} {heap : Heap} {value : Value} {rest : List Value}
    {error : EvalError} (h : fold op heap value rest = .error error) : error.OfOperation := by
  induction rest generalizing value with
  | nil => cases h
  | cons next rest ih =>
    rw [fold] at h
    cases happly : op.apply heap value next with
    | error first =>
      rw [happly] at h
      cases h
      exact Operation.ofOperation_apply happly
    | ok result =>
      rw [happly] at h
      exact ih h

end ObjectNavigation
