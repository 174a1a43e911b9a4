import ObjectNavigation.Value.Heap
/-!
Equality of values. Scalars are equal when they are of one variant and equal there, floats as
numbers. A list equals itself and any list with equal items. An object equals itself and any
object with the same type name and the same field names holding equal values; a pair of objects
that is being compared further up counts as equal, so that cyclic graphs are compared too.

Equality is defined for any way to compare objects, and the comparison of objects by the number
of pairs that may still be opened. There are at most as many pairs as the square of the number of
objects, and none is opened twice on one path.
-/
namespace ObjectNavigation

namespace Value

mutual

/-- Equality of values whose objects are compared by `objects`. -/
def eqWith (objects : ObjectId → ObjectId → Bool) : Value → Value → Bool
  | null, null => true
  | bool a, bool b => a == b
  | int a, int b => a == b
  | float a, float b => a == b
  | string a, string b => a == b
  | list i xs, list j ys => i == j || itemsEqWith objects xs ys
  | .object a, .object b => objects a b
  | _, _ => false

def itemsEqWith (objects : ObjectId → ObjectId → Bool) : List Value → List Value → Bool
  | [], [] => true
  | x :: xs, y :: ys => x.eqWith objects y && itemsEqWith objects xs ys
  | _, _ => false

end

end Value

/-- Records with equal type names, as many fields, and for each field of the first an equal one
of the same name in the second. -/
def Record.eqWith (values : Value → Value → Bool) (left right : Record) : Bool :=
  left.typeName == right.typeName && left.fields.length == right.fields.length &&
    left.fields.all fun field =>
      match right.get? field.1 with
      | some theirs => values field.2 theirs
      | none => false

namespace Heap

/-- Whether two objects are equal, given that the pairs of `pending` are being compared further
up, opening at most `budget` pairs. -/
def objectsEq (heap : Heap) : Nat → List (ObjectId × ObjectId) → ObjectId → ObjectId → Bool
  | 0, _, _, _ => true
  | budget + 1, pending, a, b =>
    a == b || pending.contains (a, b) ||
      Record.eqWith (Value.eqWith (heap.objectsEq budget ((a, b) :: pending)))
        (heap.record a) (heap.record b)

def pairBudget (heap : Heap) : Nat :=
  heap.objects.size * heap.objects.size + 1

def objectEq (heap : Heap) (a b : ObjectId) : Bool :=
  heap.objectsEq heap.pairBudget [] a b

end Heap

def Value.eq (heap : Heap) (a b : Value) : Bool :=
  a.eqWith (heap.objectsEq heap.pairBudget []) b

def Record.eq (heap : Heap) (left right : Record) : Bool :=
  Record.eqWith (Value.eq heap) left right

end ObjectNavigation
