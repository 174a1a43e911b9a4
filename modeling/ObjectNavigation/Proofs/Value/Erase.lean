import ObjectNavigation.Method.Registry
import ObjectNavigation.Value.Arithmetic

/-!
Values and graphs up to the identity of lists. Erasing gives all lists one identity; what is equal
after erasing differs in nothing but which lists are which. Type names, texts and the operations on
values do not depend on the identity of lists.
-/

namespace ObjectNavigation

namespace Value

mutual

/-- The value with the identities of its lists erased. -/
def erase : Value → Value
  | list _ items => list 0 (eraseAll items)
  | value => value

def eraseAll : List Value → List Value
  | [] => []
  | item :: rest => item.erase :: eraseAll rest

end

theorem eraseAll_eq_map (items : List Value) : eraseAll items = items.map erase := by
  induction items with
  | nil => rfl
  | cons item rest ih => simp [eraseAll, ih]

@[simp] theorem erase_null : null.erase = null := by simp [erase]
@[simp] theorem erase_bool (b : Bool) : (bool b).erase = bool b := by simp [erase]
@[simp] theorem erase_int (n : Int64) : (int n).erase = int n := by simp [erase]
@[simp] theorem erase_float (x : Float) : (float x).erase = float x := by simp [erase]
@[simp] theorem erase_string (s : String) : (string s).erase = string s := by simp [erase]
@[simp] theorem erase_object (o : ObjectId) : (object o).erase = object o := by simp [erase]
@[simp] theorem erase_list (id : ListId) (items : List Value) :
    (list id items).erase = list 0 (items.map erase) := by
  rw [erase, eraseAll_eq_map]

end Value

namespace Record

def erase (record : Record) : Record :=
  { record with fields := record.fields.map fun field => (field.1, field.2.erase) }

theorem lookup_erase (fields : List (String × Value)) (name : String) :
    (fields.map fun field => (field.1, field.2.erase)).lookup name =
      (fields.lookup name).map Value.erase := by
  induction fields with
  | nil => rfl
  | cons field rest ih =>
    obtain ⟨other, held⟩ := field
    simp only [List.map_cons, List.lookup_cons]
    split
    next => rfl
    next => exact ih

theorem assign_erase (name : String) (value : Value) (fields : List (String × Value)) :
    (assign name value fields).map (fun field => (field.1, field.2.erase)) =
      assign name value.erase (fields.map fun field => (field.1, field.2.erase)) := by
  induction fields with
  | nil => rfl
  | cons field rest ih =>
    simp only [assign, List.map_cons]
    split
    next => rfl
    next => rw [List.map_cons, ih]

theorem get?_erase (record : Record) (name : String) :
    record.erase.get? name = (record.get? name).map Value.erase :=
  lookup_erase record.fields name

theorem set_erase (record : Record) (name : String) (value : Value) :
    (record.set name value).erase = record.erase.set name value.erase := by
  simp only [set, erase, assign_erase]

end Record

namespace Heap

/-- The graph with the identities of all lists erased, and no count of them. -/
def erase (heap : Heap) : Heap where
  objects := heap.objects.map Record.erase
  lists := 0

theorem erase_eq_of_objects_eq {heap heap' : Heap} (h : heap.objects = heap'.objects) :
    heap.erase = heap'.erase := by
  rw [erase, erase, h]

theorem record_erase (heap : Heap) (o : ObjectId) :
    heap.erase.record o = (heap.record o).erase := by
  simp only [record, erase, Array.getElem?_map]
  cases heap.objects[o]? <;> rfl

theorem get?_erase (heap : Heap) (o : ObjectId) (name : String) :
    heap.erase.get? o name = (heap.get? o name).map Value.erase := by
  rw [get?, record_erase, Record.get?_erase]
  rfl

theorem set_erase (heap : Heap) (o : ObjectId) (name : String) (value : Value) :
    (heap.set o name value).erase = heap.erase.set o name value.erase := by
  simp only [set, modify, erase, Heap.mk.injEq, and_true]
  apply Array.ext
  · simp
  · intro i hi _
    simp only [Array.getElem_map, Array.getElem_modify]
    split
    next => exact Record.set_erase _ _ _
    next => rfl

end Heap

/-! ### Types and texts -/

theorem Value.typeName_erase (heap : Heap) (value : Value) :
    value.erase.typeName heap.erase = value.typeName heap := by
  cases value <;> simp [typeName, Heap.record_erase, Record.erase]

namespace Value

mutual

theorem textWith_erase (object : ObjectId → String) (value : Value) :
    value.erase.textWith object = value.textWith object := by
  match value with
  | .null | .bool _ | .int _ | .float _ | .string _ | .object _ => simp [textWith]
  | .list id items =>
    rw [erase, textWith, textWith, textsWith_erase object items]

theorem textsWith_erase (object : ObjectId → String) (items : List Value) :
    textsWith object (eraseAll items) = textsWith object items := by
  match items with
  | [] => rfl
  | item :: rest =>
    rw [eraseAll, textsWith, textsWith, textWith_erase object item, textsWith_erase object rest]

end

end Value

theorem Heap.objectText_erase (heap : Heap) (budget : Nat) (path : List ObjectId) (o : ObjectId) :
    heap.erase.objectText budget path o = heap.objectText budget path o := by
  induction budget generalizing path o with
  | zero => rfl
  | succ budget ih =>
    have hobject : heap.erase.objectText budget (o :: path) = heap.objectText budget (o :: path) :=
      funext (ih (o :: path))
    simp only [objectText, record_erase, hobject, Record.erase, List.map_map]
    simp only [Function.comp_def, Value.textWith_erase]

namespace Value

theorem debug_erase (heap : Heap) (value : Value) :
    value.erase.debug heap.erase = value.debug heap := by
  have hsize : heap.erase.objects.size = heap.objects.size := by simp [Heap.erase]
  have hobject := fun budget => funext (heap.objectText_erase budget [])
  rw [debug, debug, textWith_erase, hsize, hobject]

theorem display_erase (heap : Heap) (value : Value) :
    value.erase.display heap.erase = value.display heap := by
  have hdebug := debug_erase heap value
  cases value <;> simp_all [display]

end Value

/-! ### Operations -/

theorem Value.float?_erase (value : Value) : value.erase.float? = value.float? := by
  cases value <;> simp [float?]

theorem Value.isString_erase (value : Value) : value.erase.isString = value.isString := by
  cases value <;> simp [isString]

namespace Operation

theorem numeric_erase (op : Operation) (heap : Heap) (left right : Value) :
    op.numeric heap.erase left.erase right.erase = op.numeric heap left right := by
  have hleft := Value.typeName_erase heap left
  have hright := Value.typeName_erase heap right
  have hleft' := Value.float?_erase left
  have hright' := Value.float?_erase right
  cases left <;> cases right <;> simp_all [numeric]

theorem apply_erase (op : Operation) (heap : Heap) (left right : Value) :
    op.apply heap.erase left.erase right.erase = op.apply heap left right := by
  rw [apply, apply, Value.isString_erase, Value.isString_erase, Value.display_erase,
    Value.display_erase, numeric_erase]

theorem erase_of_apply {op : Operation} {heap : Heap} {left right value : Value}
    (h : op.apply heap left right = .ok value) : value.erase = value := by
  unfold apply numeric checked at h
  repeat' split at h
  all_goals cases h
  all_goals simp

end Operation

theorem Value.negate_erase (heap : Heap) (value : Value) :
    value.erase.negate heap.erase = value.negate heap := by
  have htype := typeName_erase heap value
  cases value <;> simp_all [negate, EvalError.unexpected]

end ObjectNavigation
