import ObjectNavigation.Proofs.Value.Handles

/-!
Reading fields one after another (`Heap.walk`), and what becomes of it when a field is written. The
objects of a graph may be shared, so a walk may read the field that is written; a walk that does
not (`Heap.Apart`) leads to where it led before.
-/

namespace ObjectNavigation

namespace Record

theorem assign_assign (name : String) (first second : Value) (fields : List (String × Value)) :
    assign name second (assign name first fields) = assign name second fields := by
  induction fields with
  | nil => simp [assign]
  | cons field rest ih =>
    obtain ⟨other, held⟩ := field
    by_cases ho : other = name
    · simp [assign, ho]
    · simp [assign, ho, ih]

theorem assign_of_lookup {name : String} {value : Value} {fields : List (String × Value)}
    (h : fields.lookup name = some value) : assign name value fields = fields := by
  induction fields with
  | nil => cases h
  | cons field rest ih =>
    obtain ⟨other, held⟩ := field
    by_cases ho : other = name
    · subst ho
      rw [List.lookup_cons_self] at h
      cases h
      rw [assign, if_pos rfl]
    · rw [List.lookup_cons, beq_eq_false_iff_ne.2 (Ne.symm ho)] at h
      rw [assign, if_neg ho, ih h]

end Record

namespace Heap
variable {heap : Heap} {o other : ObjectId} {name key : String}

theorem modify_modify (heap : Heap) (o : ObjectId) (first second : Record → Record) :
    (heap.modify o first).modify o second = heap.modify o fun record => second (first record) := by
  rw [modify, modify, modify]
  congr 1
  ext index hindex hindex'
  · simp
  · simp only [Array.getElem_modify]
    split <;> rfl

theorem modify_eq_self {change : Record → Record} (h : change (heap.record o) = heap.record o) :
    heap.modify o change = heap := by
  obtain ⟨objects, lists⟩ := heap
  rw [modify]
  congr 1
  ext index hindex hindex'
  · simp
  · rw [Array.getElem_modify]
    split
    next heq =>
      subst heq
      rw [record, Array.getElem?_eq_getElem hindex'] at h
      exact h
    next => rfl

theorem set_set (heap : Heap) (o : ObjectId) (name : String) (first second : Value) :
    (heap.set o name first).set o name second = heap.set o name second := by
  rw [set, set, set, modify_modify]
  congr 1
  funext record
  rw [Record.set, Record.set, Record.set, Record.assign_assign]

theorem set_of_get? {value : Value} (h : heap.get? o name = some value) :
    heap.set o name value = heap := by
  apply modify_eq_self
  rw [Record.set, Record.assign_of_lookup h]

theorem get?_set_self (valid : o < heap.objects.size) (name : String) (value : Value) :
    (heap.set o name value).get? o name = some value := by
  rw [get?, set, record_modify _ _ _ _ valid, if_pos rfl, Record.get?_set, if_pos rfl]

theorem get?_set_of_ne (h : ¬(other = o ∧ key = name)) (value : Value) :
    (heap.set o name value).get? other key = heap.get? other key := by
  by_cases ho : other = o
  · subst ho
    by_cases valid : other < heap.objects.size
    · rw [get?, set, record_modify _ _ _ _ valid, if_pos rfl, Record.get?_set,
        if_neg fun hkey => h ⟨rfl, hkey⟩, get?]
    · rw [get?, get?, record, record, Array.getElem?_eq_none (Nat.not_lt.1 valid),
        Array.getElem?_eq_none (by rw [size_set]; exact Nat.not_lt.1 valid)]
  · rw [get?, get?, record_set_of_ne heap name value ho]

/-! ### Walks -/

/-- The value to which the fields lead, each read from the value of the one before. -/
def walk (heap : Heap) : List String → Value → Option Value
  | [], value => some value
  | name :: rest, .object o => (heap.get? o name).bind (walk heap rest)
  | _ :: _, _ => none

/-- The walk over the fields does not read the field `last` of the object at which it ends. -/
def Apart (heap : Heap) (fields : List String) (last : String) (target : Value) : Prop :=
  ∀ o, heap.walk fields target = some (.object o) →
    ∀ before, before ++ [last] <+: fields → heap.walk before target ≠ some (.object o)

theorem walk_append (front rest : List String) (target : Value) :
    heap.walk (front ++ rest) target = (heap.walk front target).bind (heap.walk rest) := by
  induction front generalizing target with
  | nil => rfl
  | cons name front ih =>
    cases target with
    | object o =>
      rw [List.cons_append, walk, walk, Option.bind_assoc]
      congr 1
      funext value
      exact ih value
    | _ => rfl

theorem walk_concat_eq_some {front : List String} {last : String} {target value : Value}
    (h : heap.walk (front ++ [last]) target = some value) :
    ∃ o, heap.walk front target = some (.object o) ∧ heap.get? o last = some value := by
  rw [walk_append] at h
  obtain ⟨holder, hholder, h⟩ := Option.bind_eq_some_iff.1 h
  cases holder with
  | object o =>
    obtain ⟨held, hheld, h⟩ := Option.bind_eq_some_iff.1 h
    cases h
    exact ⟨o, hholder, hheld⟩
  | _ => cases h

theorem walk_within (closed : heap.Closed) {names : List String} {target value : Value}
    (htarget : target.within heap.objects.size = true) (h : heap.walk names target = some value) :
    value.within heap.objects.size = true := by
  induction names generalizing target with
  | nil =>
    cases h
    exact htarget
  | cons name rest ih =>
    cases target with
    | object o =>
      obtain ⟨held, hheld, h⟩ := Option.bind_eq_some_iff.1 h
      exact ih (closed o name held hheld) h
    | _ => cases h

/-- A walk that never reads the field leads to where it led before the field was written. -/
theorem walk_set (value : Value) {names : List String} {target : Value}
    (h : ∀ before, before ++ [name] <+: names → heap.walk before target ≠ some (.object o)) :
    (heap.set o name value).walk names target = heap.walk names target := by
  induction names generalizing target with
  | nil => rfl
  | cons first rest ih =>
    cases target with
    | object other =>
      have hread : ¬(other = o ∧ first = name) := by
        rintro ⟨rfl, rfl⟩
        exact h [] (List.prefix_append [first] rest) rfl
      rw [walk, walk, get?_set_of_ne hread]
      cases hheld : heap.get? other first with
      | none => rfl
      | some held =>
        refine ih fun before hprefix hbefore => h (first :: before) ?_ ?_
        · exact (List.prefix_cons_inj first).2 hprefix
        · rw [walk, hheld]
          exact hbefore
    | _ => rfl

end Heap
end ObjectNavigation
