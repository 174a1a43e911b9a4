import ObjectNavigation.Value.Heap
/-!
A finite picture of a value. The objects of one picture are numbered in the order in which they
are first met, depth first and fields in order; each is drawn where it is first met, and every
later visit refers to its number.
-/
namespace ObjectNavigation

inductive Picture where
  | null
  | bool (value : Bool)
  | int (value : Int64)
  | float (value : Float)
  | string (value : String)
  | list (items : List Picture)
  | object (number : Nat) (typeName : String) (fields : List (String × Picture))
  | again (number : Nat)
  deriving Inhabited

/-- Drawing remembers the objects met so far, in order. -/
abbrev Drawing := StateM (List ObjectId)

namespace Value

mutual

/-- The picture of a value whose objects are drawn by `object`. -/
def drawWith (object : ObjectId → Drawing Picture) : Value → Drawing Picture
  | null => pure .null
  | bool b => pure (.bool b)
  | int n => pure (.int n)
  | float x => pure (.float x)
  | string s => pure (.string s)
  | list _ items => return .list (← drawAllWith object items)
  | .object o => object o

def drawAllWith (object : ObjectId → Drawing Picture) : List Value → Drawing (List Picture)
  | [] => pure []
  | item :: rest => return (← item.drawWith object) :: (← drawAllWith object rest)

end

end Value

namespace Heap

/-- The picture of an object, opening at most `budget` objects on a path. -/
def drawObject (heap : Heap) : Nat → ObjectId → Drawing Picture
  | 0, _ => pure .null
  | budget + 1, o => do
    let met ← get
    if o ∈ met then return .again (met.idxOf o)
    MonadStateOf.set (met ++ [o])
    let record := heap.record o
    let fields ← record.fields.mapM fun field => do
      return (field.1, ← field.2.drawWith (heap.drawObject budget))
    return .object met.length record.typeName fields

end Heap

def Value.picture (heap : Heap) (value : Value) : Picture :=
  (value.drawWith (heap.drawObject (heap.objects.size + 1)) |>.run []).1

end ObjectNavigation
