import ObjectNavigation.Node.Body
import ObjectNavigation.Proofs.Value.Erase

/-!
Folds of an operation. A fold goes on where the fold of the first operands has come to, and of the
graph it sees the objects only. Over integers a sum or a product is the exact one, so it is the same
however the operands are put together.
-/

namespace ObjectNavigation
namespace Operation

theorem apply_of_objects_eq (op : Operation) {heap heap' : Heap} (h : heap.objects = heap'.objects)
    (left right : Value) : op.apply heap left right = op.apply heap' left right := by
  rw [← apply_erase, ← apply_erase op heap', Heap.erase_eq_of_objects_eq h]

theorem int_of_apply {op : Operation} {heap : Heap} {a b : Int64} {value : Value}
    (h : op.apply heap (.int a) (.int b) = .ok value) :
    ∃ n : Int64, value = .int n ∧ n.toInt = op.onInts a.toInt b.toInt := by
  have hnumeric : op.numeric heap (.int a) (.int b) = .ok value := by
    simpa [apply, Value.isString] using h
  rw [numeric] at hnumeric
  split at hnumeric
  next => cases hnumeric
  next =>
    rw [checked] at hnumeric
    split at hnumeric
    next n hexact =>
      cases hnumeric
      exact ⟨n, rfl, Value.exact_eq_some_iff.1 hexact⟩
    next => cases hnumeric

/-- The sum of integers, or their product. -/
def total : Operation → List Int → Int
  | multiply, ns => ns.foldr (· * ·) 1
  | _, ns => ns.foldr (· + ·) 0

theorem total_singleton (op : Operation) (n : Int) : op.total [n] = n := by
  cases op <;> simp [total]

section Total
variable {op : Operation} (flattens : (Body.arithmetic op).flattens = true)
include flattens

theorem total_cons (n : Int) (ns : List Int) : op.total (n :: ns) = op.onInts n (op.total ns) := by
  cases op with
  | add | multiply => rfl
  | subtract | divide => cases flattens

theorem total_append (ns ms : List Int) :
    op.total (ns ++ ms) = op.onInts (op.total ns) (op.total ms) := by
  induction ns with
  | nil =>
    cases op with
    | add => exact (Int.zero_add _).symm
    | multiply => exact (Int.one_mul _).symm
    | subtract | divide => cases flattens
  | cons n rest ih =>
    rw [List.cons_append, total_cons flattens, total_cons flattens, ih]
    cases op with
    | add => exact (Int.add_assoc _ _ _).symm
    | multiply => exact (Int.mul_assoc _ _ _).symm
    | subtract | divide => cases flattens

end Total
end Operation

namespace Body

theorem fold_append (op : Operation) (heap : Heap) (value : Value) (values others : List Value) :
    fold op heap value (values ++ others) =
      fold op heap value values >>= (fold op heap · others) := by
  induction values generalizing value with
  | nil => rfl
  | cons next rest ih =>
    rw [List.cons_append, fold, fold]
    cases op.apply heap value next with
    | error error => rfl
    | ok value => exact ih value

theorem fold_of_objects_eq (op : Operation) {heap heap' : Heap} (h : heap.objects = heap'.objects)
    (value : Value) (values : List Value) :
    fold op heap value values = fold op heap' value values := by
  induction values generalizing value with
  | nil => rfl
  | cons next rest ih =>
    rw [fold, fold, op.apply_of_objects_eq h]
    congr 1
    funext value
    exact ih value

theorem total_of_fold {op : Operation} (flattens : (Body.arithmetic op).flattens = true)
    {heap : Heap} {first : Int64} {rest : List Int64} {value : Value}
    (h : fold op heap (.int first) (rest.map .int) = .ok value) :
    ∃ n : Int64, value = .int n ∧ n.toInt = op.total ((first :: rest).map Int64.toInt) := by
  induction rest generalizing first with
  | nil =>
    cases h
    exact ⟨first, rfl, (op.total_singleton first.toInt).symm⟩
  | cons next rest ih =>
    rw [List.map_cons, fold] at h
    cases happly : op.apply heap (.int first) (.int next) with
    | error error =>
      rw [happly] at h
      cases h
    | ok middle =>
      obtain ⟨m, rfl, hm⟩ := Operation.int_of_apply happly
      rw [happly] at h
      obtain ⟨n, rfl, hn⟩ := ih h
      refine ⟨n, rfl, hn.trans ?_⟩
      have hpair : op.total [first.toInt, next.toInt] = m.toInt := by
        rw [Operation.total_cons flattens, Operation.total_singleton, hm]
      rw [List.map_cons, Operation.total_cons flattens, ← hpair]
      exact (Operation.total_append flattens [first.toInt, next.toInt] _).symm

end Body
end ObjectNavigation
