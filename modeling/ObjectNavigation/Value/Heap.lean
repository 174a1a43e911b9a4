import ObjectNavigation.Value.Basic
/-!
The object graph. A heap maps object names to records, and a record is a type name with named
fields in the order in which they first appeared. Assignment keeps the place of a field that
exists and appends a new one. A name without a record reads as a record with no fields.
-/
namespace ObjectNavigation

structure Record where
  typeName : String := ""
  fields : List (String × Value) := []
  deriving Inhabited

namespace Record

/-- The field list with `name` holding `value`. -/
def assign (name : String) (value : Value) : List (String × Value) → List (String × Value)
  | [] => [(name, value)]
  | (other, held) :: rest =>
    if other = name then (name, value) :: rest else (other, held) :: assign name value rest

def get? (record : Record) (name : String) : Option Value :=
  record.fields.lookup name

def set (record : Record) (name : String) (value : Value) : Record :=
  { record with fields := assign name value record.fields }

theorem lookup_assign (name key : String) (value : Value) (fields : List (String × Value)) :
    (assign name value fields).lookup key =
      if key = name then some value else fields.lookup key := by
  induction fields with
  | nil => by_cases h : key = name <;> simp [assign, List.lookup_cons, h, beq_eq_false_iff_ne.2]
  | cons field rest ih =>
    obtain ⟨other, held⟩ := field
    by_cases ho : other = name
    · subst ho
      by_cases hk : key = other
      · simp [assign, hk]
      · simp [assign, List.lookup_cons, hk, beq_eq_false_iff_ne.2 hk]
    · by_cases hk : key = other
      · subst hk
        simp [assign, ho]
      · simp [assign, ho, List.lookup_cons, beq_eq_false_iff_ne.2 hk, ih]

@[simp] theorem get?_set (record : Record) (name key : String) (value : Value) :
    (record.set name value).get? key = if key = name then some value else record.get? key :=
  lookup_assign name key value record.fields

@[simp] theorem typeName_set (record : Record) (name : String) (value : Value) :
    (record.set name value).typeName = record.typeName := rfl

/-- The names of the fields, in order; assignment appends a name only when it is new. -/
def names (record : Record) : List String :=
  record.fields.map Prod.fst

theorem names_set (record : Record) (name : String) (value : Value) :
    (record.set name value).names =
      if name ∈ record.names then record.names else record.names ++ [name] := by
  obtain ⟨typeName, fields⟩ := record
  simp only [names, set]
  induction fields with
  | nil => simp [assign]
  | cons field rest ih =>
    obtain ⟨other, held⟩ := field
    by_cases ho : other = name
    · simp [assign, ho]
    · simp only [assign, if_neg ho, List.map_cons, List.mem_cons, Ne.symm ho, false_or]
      rw [ih]
      split
      next h => simp [h]
      next h => simp [h]

end Record

/-- The records of a graph and the number of list identities handed out so far. -/
structure Heap where
  objects : Array Record := #[]
  lists : ListId := 0
  deriving Inhabited

namespace Heap

def record (heap : Heap) (object : ObjectId) : Record :=
  heap.objects[object]?.getD {}

def allocate (heap : Heap) (record : Record) : ObjectId × Heap :=
  (heap.objects.size, { heap with objects := heap.objects.push record })

def newList (heap : Heap) (items : List Value) : Value × Heap :=
  (.list heap.lists items, { heap with lists := heap.lists + 1 })

def modify (heap : Heap) (object : ObjectId) (change : Record → Record) : Heap :=
  { heap with objects := heap.objects.modify object change }

def get? (heap : Heap) (object : ObjectId) (name : String) : Option Value :=
  (heap.record object).get? name

def set (heap : Heap) (object : ObjectId) (name : String) (value : Value) : Heap :=
  heap.modify object (·.set name value)

theorem record_modify (heap : Heap) (object other : ObjectId) (change : Record → Record)
    (h : object < heap.objects.size) :
    (heap.modify object change).record other =
      if other = object then change (heap.record object) else heap.record other := by
  unfold modify record
  by_cases ho : other = object
  · subst ho
    simp [Array.getElem_modify, h]
  · simp [Array.getElem?_modify, ho, Ne.symm ho]

theorem record_set_of_ne (heap : Heap) {object other : ObjectId} (name : String) (value : Value)
    (h : other ≠ object) : (heap.set object name value).record other = heap.record other := by
  simp [set, modify, record, Array.getElem?_modify, Ne.symm h]

@[simp] theorem size_set (heap : Heap) (object : ObjectId) (name : String) (value : Value) :
    (heap.set object name value).objects.size = heap.objects.size := by
  simp [set, modify]

@[simp] theorem typeName_set (heap : Heap) (object other : ObjectId) (name : String)
    (value : Value) :
    ((heap.set object name value).record other).typeName = (heap.record other).typeName := by
  by_cases h : object < heap.objects.size
  · rw [set, record_modify _ _ _ _ h]
    split
    next he => subst he; rfl
    next => rfl
  · simp only [set, modify, record, Array.getElem?_modify]
    split
    next he => subst he; simp [Array.getElem?_eq_none (Nat.not_lt.1 h)]
    next => rfl

end Heap

/-- The type of a value, as it is named in messages and in method look-up. -/
def Value.typeName (heap : Heap) : Value → String
  | .null => "null"
  | .bool _ => "bool"
  | .int _ => "i64"
  | .float _ => "f64"
  | .string _ => "String"
  | .list _ _ => "List"
  | .object o => (heap.record o).typeName

end ObjectNavigation
