import ObjectNavigation.Value.Heap
import ObjectNavigation.Text.Quoted
import ObjectNavigation.Decimal.Notation
/-!
The text of a value. `debug` quotes strings and writes lists and objects out in full; an object
that is already being written further up is written as a cycle. `display` differs only for a
string, which stands without quotes.

The text of a value is defined for any way to write objects, and the text of an object by the
number of objects that may still be opened. More than the heap holds is never needed, because an
object is opened at most once on each path.
-/
namespace ObjectNavigation

namespace Value

mutual

/-- The text of a value whose objects are written by `object`. -/
def textWith (object : ObjectId → String) : Value → String
  | null => "null"
  | bool b => if b then "true" else "false"
  | int n => toString n.toInt
  | float x => Decimal.floatText x
  | string s => quoted s
  | list _ items => "[" ++ ", ".intercalate (textsWith object items) ++ "]"
  | .object o => object o

def textsWith (object : ObjectId → String) : List Value → List String
  | [] => []
  | item :: rest => item.textWith object :: textsWith object rest

end

theorem textsWith_eq_map (object : ObjectId → String) (items : List Value) :
    textsWith object items = items.map (textWith object) := by
  induction items with
  | nil => rfl
  | cons item rest ih => simp [textsWith, ih]

end Value

/-- A record with its field texts; a record without fields is its type name alone. -/
def Record.layout (typeName : String) (fields : List (String × String)) : String :=
  if fields.isEmpty then typeName
  else
    typeName ++ " \x7b " ++
      ", ".intercalate (fields.map fun field => field.1 ++ ": " ++ field.2) ++ " \x7d"

namespace Heap

/-- The text of an object below the objects of `path`, opening at most `budget` objects. -/
def objectText (heap : Heap) : Nat → List ObjectId → ObjectId → String
  | 0, _, _ => ""
  | budget + 1, path, o =>
    if o ∈ path then "<cycle>"
    else
      let record := heap.record o
      Record.layout record.typeName (record.fields.map fun field =>
        (field.1, field.2.textWith (heap.objectText budget (o :: path))))

end Heap

namespace Value

def debug (heap : Heap) (value : Value) : String :=
  value.textWith (heap.objectText (heap.objects.size + 1) [])

def display (heap : Heap) : Value → String
  | string s => s
  | value => value.debug heap

end Value
end ObjectNavigation
