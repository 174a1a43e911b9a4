import ObjectNavigation.Proofs.Value.Fold

/-!
Sums of values of any types. Up to the first text a sum is one of numbers, and from there on all is
written out, whatever it is. A value before the text is written out as it is if it is the only one;
if there are more, their sum is written out, so they have to be numbers.
-/

namespace ObjectNavigation
namespace Value

/-- What two values come to if they are added as numbers. -/
inductive Plus (heap : Heap) : Value → Value → Except EvalError Value → Prop where
  | ints {a b sum : Int64} (h : sum.toInt = a.toInt + b.toInt) :
    Plus heap (.int a) (.int b) (.ok (.int sum))
  | overflow {a b : Int64} (h : ∀ sum : Int64, sum.toInt ≠ a.toInt + b.toInt) :
    Plus heap (.int a) (.int b) (.error (.overflow "+"))
  | floats {left right : Value} {x y : Float} (mixed : left.int? = none ∨ right.int? = none)
    (hleft : left.float? = some x) (hright : right.float? = some y) :
    Plus heap left right (.ok (.float (x + y)))
  | operand {left right : Value} (h : left.isNumeric = false ∨ right.isNumeric = false) :
    Plus heap left right
      (.error (.invalidOperands "+" (left.typeName heap) (right.typeName heap)))

/-- Values are added to the first from the left, up to the first step that fails. -/
inductive Adds (heap : Heap) : Value → List Value → Except EvalError Value → Prop where
  | total (sum : Value) : Adds heap sum [] (.ok sum)
  | step {left right sum : Value} {rest : List Value} {outcome : Except EvalError Value}
    (plus : Plus heap left right (.ok sum)) (hrest : Adds heap sum rest outcome) :
    Adds heap left (right :: rest) outcome
  | fails {left right : Value} {rest : List Value} {error : EvalError}
    (plus : Plus heap left right (.error error)) : Adds heap left (right :: rest) (.error error)

/-- What is written before the first text, if these values come before it. -/
inductive Opening (heap : Heap) : List Value → Except EvalError String → Prop where
  | nothing : Opening heap [] (.ok "")
  | one (value : Value) : Opening heap [value] (.ok (value.display heap))
  | numbers {first second : Value} {rest : List Value} {sum : Except EvalError Value}
    (adds : Adds heap first (second :: rest) sum) :
    Opening heap (first :: second :: rest) (sum.map (display heap))

/-- What the values come to, depending on the first text among them. -/
inductive Sums (heap : Heap) : List Value → Except EvalError Value → Prop where
  | numbers {first : Value} {rest : List Value} {outcome : Except EvalError Value}
    (hfront : ∀ value ∈ first :: rest, value.isString = false)
    (adds : Adds heap first rest outcome) :
    Sums heap (first :: rest) outcome
  | text {front back : List Value} {s : String} {opening : Except EvalError String}
    (hfront : ∀ value ∈ front, value.isString = false) (opens : Opening heap front opening) :
    Sums heap (front ++ .string s :: back)
      (opening.map fun start =>
        .string (start ++ String.join ((.string s :: back).map (display heap))))

theorem float?_eq_none_iff {value : Value} : value.float? = none ↔ value.isNumeric = false := by
  cases value <;> simp [float?, isNumeric]

theorem int?_of_float? {value : Value} (h : value.float? = none) : value.int? = none := by
  cases value with
  | int n => cases h
  | _ => rfl

section
variable {heap : Heap} {left right first : Value} {rest back : List Value}
  {outcome : Except EvalError Value}

theorem numeric_ints (heap : Heap) (a b : Int64) :
    Operation.add.numeric heap (.int a) (.int b) = Operation.checked "+" (a.toInt + b.toInt) := by
  rw [Operation.numeric, if_neg (by simp)]
  rfl

theorem ints_or_mixed (left right : Value) :
    (∃ a b, left = .int a ∧ right = .int b) ∨ (left.int? = none ∨ right.int? = none) := by
  cases left with
  | int a =>
    cases right with
    | int b => exact .inl ⟨a, b, rfl, rfl⟩
    | _ => exact .inr (.inr rfl)
  | _ => exact .inr (.inl rfl)

theorem numeric_of_mixed (mixed : left.int? = none ∨ right.int? = none) :
    Operation.add.numeric heap left right =
      match left.float?, right.float? with
      | some x, some y => .ok (.float (x + y))
      | _, _ => .error (.invalidOperands "+" (left.typeName heap) (right.typeName heap)) := by
  unfold Operation.numeric
  split
  next => cases mixed <;> contradiction
  next => rfl

theorem numeric_of_plus (h : Plus heap left right outcome) :
    Operation.add.numeric heap left right = outcome := by
  cases h with
  | ints h => rw [numeric_ints, Operation.checked, exact_eq_some_iff.2 h]
  | @overflow a b h =>
    have hnone : exact (a.toInt + b.toInt) = none := by
      refine Option.eq_none_iff_forall_ne_some.2 fun sum hsum => ?_
      exact h sum (exact_eq_some_iff.1 hsum)
    rw [numeric_ints, Operation.checked, hnone]
  | floats mixed hleft hright => rw [numeric_of_mixed mixed, hleft, hright]
  | operand h =>
    simp only [← float?_eq_none_iff] at h
    rw [numeric_of_mixed (h.imp int?_of_float? int?_of_float?)]
    rcases h with h | h
    · rw [h]
    · rw [h]
      cases left.float? <;> rfl

theorem plus_numeric (heap : Heap) (left right : Value) :
    Plus heap left right (Operation.add.numeric heap left right) := by
  rcases ints_or_mixed left right with ⟨a, b, rfl, rfl⟩ | mixed
  · rw [numeric_ints, Operation.checked]
    cases hexact : exact (a.toInt + b.toInt) with
    | some sum => exact .ints (exact_eq_some_iff.1 hexact)
    | none =>
      refine .overflow fun sum hsum => ?_
      rw [exact_eq_some_iff.2 hsum] at hexact
      cases hexact
  · rw [numeric_of_mixed mixed]
    split
    next x y hleft hright => exact .floats mixed hleft hright
    next hfloats =>
      refine .operand ?_
      rw [← float?_eq_none_iff, ← float?_eq_none_iff]
      cases hleft : left.float? with
      | none => exact .inl rfl
      | some x =>
        cases hright : right.float? with
        | none => exact .inr rfl
        | some y => exact absurd hright (hfloats x y hleft)

theorem plus_iff : Plus heap left right outcome ↔
    Operation.add.numeric heap left right = outcome :=
  ⟨numeric_of_plus, fun h => h ▸ plus_numeric heap left right⟩

theorem Plus.isString_eq_false {sum : Value} (h : Plus heap left right (.ok sum)) :
    sum.isString = false := by
  cases h <;> rfl

theorem adds_iff (h : ∀ value ∈ first :: rest, value.isString = false) :
    Adds heap first rest outcome ↔ Body.fold .add heap first rest = outcome := by
  induction rest generalizing first with
  | nil =>
    constructor
    · rintro ⟨⟩
      rfl
    · rintro rfl
      exact .total first
  | cons second rest ih =>
    obtain ⟨hfirst, hsecond, hrest⟩ := by simpa only [List.forall_mem_cons] using h
    have happly : Operation.add.apply heap first second =
        Operation.add.numeric heap first second := by
      rw [Operation.apply, hfirst, hsecond]
      rfl
    have hstep : ∀ sum, Plus heap first second (.ok sum) →
        (Adds heap sum rest outcome ↔ Body.fold .add heap sum rest = outcome) := fun sum hsum =>
      ih (List.forall_mem_cons.2 ⟨hsum.isString_eq_false, hrest⟩)
    rw [Body.fold, happly]
    constructor
    · rintro (_ | ⟨plus, adds⟩ | plus)
      · rw [plus_iff.1 plus]
        exact (hstep _ plus).1 adds
      · rw [plus_iff.1 plus]
        rfl
    · intro hfold
      have plus := plus_numeric heap first second
      cases hnumeric : Operation.add.numeric heap first second with
      | error error =>
        rw [hnumeric] at hfold plus
        cases hfold
        exact .fails plus
      | ok sum =>
        rw [hnumeric] at hfold plus
        exact .step plus ((hstep sum plus).2 hfold)

/-- From a text on all values are written out. -/
theorem fold_string (heap : Heap) (s : String) (back : List Value) :
    Body.fold .add heap (.string s) back =
      .ok (.string (s ++ String.join (back.map (display heap)))) := by
  induction back generalizing s with
  | nil => simp [Body.fold]
  | cons value rest ih =>
    have happly : Operation.add.apply heap (.string s) value =
        .ok (.string (s ++ value.display heap)) := rfl
    rw [Body.fold, happly, List.map_cons, String.join_cons, ← String.append_assoc]
    exact ih _

theorem fold_cons_string (heap : Heap) (value : Value) (s : String) (back : List Value) :
    Body.fold .add heap value (.string s :: back) =
      .ok (.string (value.display heap ++
        String.join ((.string s :: back).map (display heap)))) := by
  have happly : Operation.add.apply heap value (.string s) =
      .ok (.string (value.display heap ++ s)) := by
    rw [Operation.apply, if_pos ⟨rfl, by simp [isString]⟩]
    rfl
  rw [Body.fold, happly, List.map_cons, String.join_cons, ← String.append_assoc]
  exact fold_string heap _ back

theorem fold_of_sums (h : Sums heap (first :: rest) outcome) :
    Body.fold .add heap first rest = outcome := by
  generalize hvalues : first :: rest = values at h
  cases h with
  | numbers hfront adds =>
    cases hvalues
    exact (adds_iff hfront).1 adds
  | @text front back s _ hfront opens =>
    cases opens with
    | nothing =>
      cases hvalues
      rw [fold_string]
      simp [Except.map, display]
    | one =>
      cases hvalues
      exact fold_cons_string heap first s back
    | @numbers _ second rest sum adds =>
      cases hvalues
      have hfold := Body.fold_append .add heap first (second :: rest) (.string s :: back)
      rw [(adds_iff hfront).1 adds] at hfold
      refine hfold.trans ?_
      cases sum with
      | error error => rfl
      | ok sum => exact fold_cons_string heap sum s back

theorem exists_opening {front : List Value} (hfront : ∀ value ∈ front, value.isString = false) :
    ∃ opening, Opening heap front opening := by
  match front with
  | [] => exact ⟨_, .nothing⟩
  | [value] => exact ⟨_, .one value⟩
  | first :: second :: rest => exact ⟨_, .numbers ((adds_iff hfront).2 rfl)⟩

theorem exists_sums (heap : Heap) (first : Value) (rest : List Value) :
    ∃ outcome, Sums heap (first :: rest) outcome := by
  cases hfind : (first :: rest).find? isString with
  | none =>
    have hfront : ∀ value ∈ first :: rest, value.isString = false := by
      simpa using List.find?_eq_none.1 hfind
    exact ⟨_, .numbers hfront ((adds_iff hfront).2 rfl)⟩
  | some text =>
    obtain ⟨htext, front, back, hvalues, hfront⟩ := List.find?_eq_some_iff_append.1 hfind
    have hstring : ∃ s, text = .string s := by
      cases text with
      | string s => exact ⟨s, rfl⟩
      | _ => cases htext
    obtain ⟨s, rfl⟩ := hstring
    have hfront : ∀ value ∈ front, value.isString = false := by simpa using hfront
    obtain ⟨_, opens⟩ := @exists_opening heap front hfront
    rw [hvalues]
    exact ⟨_, .text hfront opens⟩

theorem sums_iff : Sums heap (first :: rest) outcome ↔
    Body.fold .add heap first rest = outcome := by
  refine ⟨fold_of_sums, ?_⟩
  rintro rfl
  obtain ⟨outcome, sums⟩ := exists_sums heap first rest
  rw [fold_of_sums sums]
  exact sums

example :
    Body.fold .add default (.bool true) [.string "m", .int 1, .int 2] =
        .ok (.string "truem12") ∧
      Body.fold .add default (.int 1) [.int 2, .string "m"] = .ok (.string "3m") ∧
      Body.fold .add default (.bool true) [.int 1, .string "m"] =
        .error (.invalidOperands "+" "bool" "i64") :=
  ⟨rfl, rfl, rfl⟩

end

end Value
end ObjectNavigation
