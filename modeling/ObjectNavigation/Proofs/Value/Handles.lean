import ObjectNavigation.Proofs.Node.Constant

/-!
Handles and the fields they lead to. A graph is closed if no field holds a handle of an object that
is not there; what the operations make of values holds no handle that the values did not hold.
Writing a field of an object that is there changes that field alone, in its place or, if it is new,
at the end (`Heap.Writes`), and a closed graph stays closed.
-/

namespace ObjectNavigation

/-! ### Values -/

namespace Value
variable {size : Nat}

mutual

/-- All objects of the value are among the first ones, as many as `size`. -/
def within (size : Nat) : Value → Bool
  | object o => o < size
  | list _ items => allWithin size items
  | _ => true

def allWithin (size : Nat) : List Value → Bool
  | [] => true
  | item :: rest => item.within size && allWithin size rest

end

theorem allWithin_iff {items : List Value} :
    allWithin size items = true ↔ ∀ item ∈ items, item.within size = true := by
  induction items with
  | nil => simp [allWithin]
  | cons item rest ih => rw [allWithin, Bool.and_eq_true, ih, List.forall_mem_cons]

mutual

theorem within_of_isObjectFree {value : Value} (h : value.isObjectFree = true) :
    value.within size = true := by
  match value with
  | .null | .bool _ | .int _ | .float _ | .string _ => simp [within]
  | .list id items =>
    rw [isObjectFree] at h
    rw [within]
    exact allWithin_of_allObjectFree h
  | .object o => cases h

theorem allWithin_of_allObjectFree {items : List Value} (h : allObjectFree items = true) :
    allWithin size items = true := by
  match items with
  | [] => rfl
  | item :: rest =>
    rw [allObjectFree, Bool.and_eq_true] at h
    rw [allWithin, within_of_isObjectFree h.1, allWithin_of_allObjectFree h.2, Bool.true_and]

end

end Value

theorem Body.within_of_fold {op : Operation} {heap : Heap} {size : Nat} {value result : Value}
    (hvalue : value.within size = true) {rest : List Value}
    (h : fold op heap value rest = .ok result) : result.within size = true := by
  cases rest with
  | nil =>
    cases h
    exact hvalue
  | cons next rest =>
    obtain ⟨middle, happly, h⟩ := bind_eq_ok_iff.1 h
    have hmiddle := Operation.isObjectFree_of_apply happly
    exact Value.within_of_isObjectFree (isObjectFree_of_fold hmiddle h)

/-! ### Graphs -/

theorem Record.assign_cases (name : String) (value : Value) (fields : List (String × Value)) :
    (∃ front held back, fields = front ++ (name, held) :: back ∧
        (∀ field ∈ front, field.1 ≠ name) ∧
        assign name value fields = front ++ (name, value) :: back) ∨
      (name ∉ fields.map Prod.fst ∧ assign name value fields = fields ++ [(name, value)]) := by
  induction fields with
  | nil => exact .inr ⟨by simp, rfl⟩
  | cons field rest ih =>
    obtain ⟨other, held⟩ := field
    by_cases ho : other = name
    · subst ho
      refine .inl ⟨[], held, rest, rfl, by simp, ?_⟩
      rw [assign, if_pos rfl, List.nil_append]
    · rw [assign, if_neg ho]
      rcases ih with ⟨front, old, back, hrest, hfront, hassign⟩ | ⟨hnew, hassign⟩
      · refine .inl ⟨(other, held) :: front, old, back, by rw [hrest, List.cons_append], ?_, ?_⟩
        · exact List.forall_mem_cons.2 ⟨ho, hfront⟩
        · rw [hassign, List.cons_append]
      · refine .inr ⟨?_, by rw [hassign, List.cons_append]⟩
        rw [List.map_cons, List.mem_cons, not_or]
        exact ⟨Ne.symm ho, hnew⟩

namespace Heap
variable {heap before after : Heap} {o : ObjectId} {name : String} {value : Value}

theorem get?_eq_of_objects_eq (h : before.objects = after.objects) (o : ObjectId) (name : String) :
    before.get? o name = after.get? o name := by
  rw [get?, get?, record, record, h]

/-- No field holds an object that is not there. -/
def Closed (heap : Heap) : Prop :=
  ∀ o name value, heap.get? o name = some value → value.within heap.objects.size = true

theorem closed_of_fields
    (h : ∀ record ∈ heap.objects, ∀ field ∈ record.fields,
      field.2.within heap.objects.size = true) : heap.Closed := by
  intro o name value hvalue
  rw [get?, record] at hvalue
  cases hrecord : heap.objects[o]? with
  | none =>
    rw [hrecord] at hvalue
    cases hvalue
  | some record =>
    rw [hrecord] at hvalue
    obtain ⟨front, back, hfields, _⟩ := List.lookup_eq_some_iff.1 hvalue
    apply h record (Array.mem_of_getElem? hrecord) (name, value)
    rw [Option.getD_some] at hfields
    rw [hfields]
    exact List.mem_append_right front List.mem_cons_self

theorem Closed.of_objects_eq (closed : before.Closed) (h : after.objects = before.objects) :
    after.Closed := by
  intro o name value hvalue
  rw [h]
  exact closed o name value ((get?_eq_of_objects_eq h o name).symm.trans hvalue)

/-- One graph is the other with one field of one object written: a field that is there keeps its
place, a new one comes last, and nothing else differs. -/
structure Writes (before : Heap) (o : ObjectId) (name : String) (value : Value) (after : Heap) :
    Prop where
  valid : o < before.objects.size
  size : after.objects.size = before.objects.size
  others : ∀ other, other ≠ o → after.record other = before.record other
  typeName : (after.record o).typeName = (before.record o).typeName
  fields :
    (∃ front held back, (before.record o).fields = front ++ (name, held) :: back ∧
        (∀ field ∈ front, field.1 ≠ name) ∧
        (after.record o).fields = front ++ (name, value) :: back) ∨
      (name ∉ (before.record o).names ∧
        (after.record o).fields = (before.record o).fields ++ [(name, value)])

theorem writes_set (valid : o < heap.objects.size) (name : String) (value : Value) :
    heap.Writes o name value (heap.set o name value) where
  valid := valid
  size := heap.size_set o name value
  others _ hother := heap.record_set_of_ne name value hother
  typeName := heap.typeName_set o o name value
  fields := by
    rw [set, record_modify _ _ _ _ valid, if_pos rfl]
    exact Record.assign_cases name value (heap.record o).fields

theorem Writes.of_objects_eq {before' after' : Heap} (h : before.Writes o name value after)
    (hbefore : before'.objects = before.objects) (hafter : after'.objects = after.objects) :
    before'.Writes o name value after' := by
  have hrecord : before'.record = before.record := by
    funext other
    rw [record, record, hbefore]
  have hrecord' : after'.record = after.record := by
    funext other
    rw [record, record, hafter]
  constructor
  · rw [hbefore]
    exact h.valid
  · rw [hbefore, hafter]
    exact h.size
  · rw [hrecord, hrecord']
    exact h.others
  · rw [hrecord, hrecord']
    exact h.typeName
  · rw [hrecord, hrecord']
    exact h.fields

theorem Closed.set (closed : heap.Closed) (valid : o < heap.objects.size)
    (hvalue : value.within heap.objects.size = true) : (heap.set o name value).Closed := by
  intro other key held hheld
  rw [size_set]
  rw [get?, Heap.set, record_modify _ _ _ _ valid] at hheld
  split at hheld
  next =>
    rw [Record.get?_set] at hheld
    split at hheld
    next =>
      cases hheld
      exact hvalue
    next => exact closed o key held hheld
  next => exact closed other key held hheld

end Heap
end ObjectNavigation
