import Mathlib.Logic.Relation
import Mathlib.Data.Finset.Card
import ObjectNavigation.Value.Text

/-!
Printing a value. `Heap.Prints` is the printing itself: it keeps a list of the objects that are
being printed, marks an object that is on the list as a cycle, and otherwise puts it on the list,
prints its fields and takes it off again. It ends on every graph, because an object that is on the
list is not opened again, and what it prints has the text `Value.debug`. `Print.At` tells the
places of a print and the objects that are being printed around each of them.
-/

namespace ObjectNavigation

inductive Print where
  | scalar (text : String)
  | list (items : List Print)
  /-- An object in full, by the names and the values of its fields. -/
  | record (object : ObjectId) (typeName : String) (names : List String) (values : List Print)
  /-- An object that is being printed further up. -/
  | cycle (object : ObjectId)

namespace Print

mutual

def text : Print → String
  | scalar text => text
  | list items => "[" ++ ", ".intercalate (texts items) ++ "]"
  | record _ typeName names values => Record.layout typeName (names.zip (texts values))
  | cycle _ => "<cycle>"

def texts : List Print → List String
  | [] => []
  | print :: rest => print.text :: texts rest

end

/-- The second print is in a place of the first one where these objects are being printed, the
innermost first. -/
inductive At (print : Print) : List ObjectId → Print → Prop
  | root : At print [] print
  | item {above : List ObjectId} {items : List Print} {item : Print}
      (h : At print above (list items)) (hitem : item ∈ items) : At print above item
  | field {above : List ObjectId} {o : ObjectId} {typeName : String} {names : List String}
      {values : List Print} {value : Print} (h : At print above (record o typeName names values))
      (hvalue : value ∈ values) : At print (o :: above) value

/-- An object is marked as a cycle where it is being printed further up, and nowhere else. -/
structure Marks (print : Print) : Prop where
  cycle : ∀ above o, print.At above (.cycle o) → o ∈ above
  record : ∀ above o typeName names values,
    print.At above (.record o typeName names values) → o ∉ above

end Print

/-- The text of a value that is neither a list nor an object. -/
def Value.scalarText? : Value → Option String
  | null => some "null"
  | bool b => some (if b then "true" else "false")
  | int n => some (toString n.toInt)
  | float x => some (Decimal.floatText x)
  | string s => some (quoted s)
  | list _ _ => none
  | .object _ => none

/-- The value is the object, or a list in which the object is at some depth. -/
inductive Value.Mentions : Value → ObjectId → Prop
  | object (o : ObjectId) : Mentions (.object o) o
  | item {id : ListId} {items : List Value} {item : Value} {o : ObjectId} (hitem : item ∈ items)
      (h : Mentions item o) : Mentions (.list id items) o

namespace Heap
variable {heap : Heap}

def fieldValues (heap : Heap) (o : ObjectId) : List Value :=
  (heap.record o).fields.map Prod.snd

mutual

/-- What is printed of a value while the objects `seen` are being printed, and the list of them
afterwards. -/
inductive Prints (heap : Heap) : List ObjectId → Value → Print → List ObjectId → Prop
  | scalar {seen : List ObjectId} {value : Value} {text : String}
      (h : value.scalarText? = some text) : Prints heap seen value (.scalar text) seen
  | list {seen after : List ObjectId} {id : ListId} {items : List Value} {prints : List Print}
      (h : PrintsAll heap seen items prints after) :
      Prints heap seen (.list id items) (.list prints) after
  | cycle {seen : List ObjectId} {o : ObjectId} (h : o ∈ seen) :
      Prints heap seen (.object o) (.cycle o) seen
  | record {seen after : List ObjectId} {o : ObjectId} {values : List Print} (h : o ∉ seen)
      (fields : PrintsAll heap (o :: seen) (heap.fieldValues o) values after) :
      Prints heap seen (.object o)
        (.record o (heap.record o).typeName (heap.record o).names values) after.tail

inductive PrintsAll (heap : Heap) : List ObjectId → List Value → List Print → List ObjectId → Prop
  | nil {seen : List ObjectId} : PrintsAll heap seen [] [] seen
  | cons {seen middle after : List ObjectId} {value : Value} {rest : List Value} {print : Print}
      {prints : List Print} (first : Prints heap seen value print middle)
      (follow : PrintsAll heap middle rest prints after) :
      PrintsAll heap seen (value :: rest) (print :: prints) after

end

mutual

/-- The print is of the value: objects in full, or marked as cycles. -/
inductive Shows (heap : Heap) : Value → Print → Prop
  | scalar {value : Value} {text : String} (h : value.scalarText? = some text) :
      Shows heap value (.scalar text)
  | list {id : ListId} {items : List Value} {prints : List Print}
      (h : ShowsAll heap items prints) : Shows heap (.list id items) (.list prints)
  | cycle (o : ObjectId) : Shows heap (.object o) (.cycle o)
  | record {o : ObjectId} {values : List Print} (h : ShowsAll heap (heap.fieldValues o) values) :
      Shows heap (.object o) (.record o (heap.record o).typeName (heap.record o).names values)

inductive ShowsAll (heap : Heap) : List Value → List Print → Prop
  | nil : ShowsAll heap [] []
  | cons {value : Value} {rest : List Value} {print : Print} {prints : List Print}
      (first : Shows heap value print) (follow : ShowsAll heap rest prints) :
      ShowsAll heap (value :: rest) (print :: prints)

end

/-! ### Printing is a function -/

mutual

/-- What is put on the list is taken off. -/
theorem Prints.after_eq {seen after : List ObjectId} {value : Value} {print : Print}
    (h : heap.Prints seen value print after) : after = seen := by
  match h with
  | .scalar _ | .cycle _ => rfl
  | .list h => exact h.after_eq
  | .record _ h => rw [h.after_eq, List.tail_cons]

theorem PrintsAll.after_eq {seen after : List ObjectId} {values : List Value}
    {prints : List Print} (h : heap.PrintsAll seen values prints after) : after = seen := by
  match h with
  | .nil => rfl
  | .cons first follow => exact follow.after_eq.trans first.after_eq

end

mutual

theorem Prints.unique {seen after after' : List ObjectId} {value : Value} {print print' : Print}
    (h : heap.Prints seen value print after) (h' : heap.Prints seen value print' after') :
    print = print' := by
  match h, h' with
  | .scalar h, .scalar h' => rw [Option.some.inj (h.symm.trans h')]
  | .scalar h, .list _ | .scalar h, .cycle _ | .scalar h, .record _ _ => cases h
  | .list h, .list h' => rw [h.unique h']
  | .list _, .scalar h' | .cycle _, .scalar h' | .record _ _, .scalar h' => cases h'
  | .cycle _, .cycle _ => rfl
  | .cycle h, .record h' _ | .record h' _, .cycle h => exact absurd h h'
  | .record _ h, .record _ h' => rw [h.unique h']

theorem PrintsAll.unique {seen after after' : List ObjectId} {values : List Value}
    {prints prints' : List Print} (h : heap.PrintsAll seen values prints after)
    (h' : heap.PrintsAll seen values prints' after') : prints = prints' := by
  match h, h' with
  | .nil, .nil => rfl
  | .cons first follow, .cons first' follow' =>
    rw [first.unique first']
    rw [first.after_eq] at follow
    rw [first'.after_eq] at follow'
    rw [follow.unique follow']

end

/-! ### Printing ends -/

section
variable {seen : List ObjectId} {object : ObjectId → String}

mutual

theorem exists_prints
    (h : ∀ o, ∃ print, heap.Prints seen (.object o) print seen ∧ print.text = object o)
    (value : Value) :
    ∃ print, heap.Prints seen value print seen ∧ print.text = value.textWith object := by
  match value with
  | .list id items =>
    obtain ⟨prints, hprints, htexts⟩ := exists_printsAll h items
    exact ⟨.list prints, .list hprints, by rw [Print.text, Value.textWith, htexts]⟩
  | .object o => exact h o
  | .null | .bool _ | .int _ | .float _ | .string _ => exact ⟨.scalar _, .scalar rfl, rfl⟩

theorem exists_printsAll
    (h : ∀ o, ∃ print, heap.Prints seen (.object o) print seen ∧ print.text = object o)
    (values : List Value) :
    ∃ prints, heap.PrintsAll seen values prints seen ∧
      Print.texts prints = Value.textsWith object values := by
  match values with
  | [] => exact ⟨[], .nil, rfl⟩
  | value :: rest =>
    obtain ⟨print, hprint, htext⟩ := exists_prints h value
    obtain ⟨prints, hprints, htexts⟩ := exists_printsAll h rest
    refine ⟨print :: prints, .cons hprint hprints, ?_⟩
    rw [Print.texts, Value.textsWith, htext, htexts]

end

theorem exists_prints_record
    (h : ∀ o, ∃ print, heap.Prints seen (.object o) print seen ∧ print.text = object o)
    (o : ObjectId) : ∃ values, heap.PrintsAll seen (heap.fieldValues o) values seen ∧
      (Print.record o (heap.record o).typeName (heap.record o).names values).text =
        Record.layout (heap.record o).typeName
          ((heap.record o).fields.map fun field => (field.1, field.2.textWith object)) := by
  obtain ⟨values, hvalues, htexts⟩ := exists_printsAll h (heap.fieldValues o)
  refine ⟨values, hvalues, ?_⟩
  rw [Print.text, htexts, Value.textsWith_eq_map, fieldValues, List.map_map, Record.names,
    List.zip_map']
  rfl

end

/-- With objects that are in the graph on the list, each once, an object can be printed. -/
theorem exists_prints_object {budget : Nat} {path : List ObjectId} (nodup : path.Nodup)
    (known : ∀ o ∈ path, o < heap.objects.size) (hbudget : heap.objects.size < budget + path.length)
    (o : ObjectId) : ∃ print, heap.Prints path (.object o) print path ∧
      print.text = heap.objectText budget path o := by
  induction budget generalizing path o with
  | zero =>
    -- the list is longer than the graph is large
    have hsub : path ⊆ List.range heap.objects.size := fun o ho => List.mem_range.2 (known o ho)
    have hle := (nodup.subperm hsub).length_le
    rw [List.length_range] at hle
    omega
  | succ budget ih =>
    rw [objectText]
    split
    next hmem => exact ⟨.cycle o, .cycle hmem, rfl⟩
    next hnew =>
      by_cases ho : o < heap.objects.size
      · have hnext : ∀ next, ∃ print, heap.Prints (o :: path) (.object next) print (o :: path) ∧
            print.text = heap.objectText budget (o :: path) next := by
          refine ih (List.nodup_cons.2 ⟨hnew, nodup⟩) (List.forall_mem_cons.2 ⟨ho, known⟩) ?_
          rw [List.length_cons]
          omega
        obtain ⟨values, hvalues, htext⟩ := exists_prints_record hnext o
        exact ⟨_, .record hnew hvalues, htext⟩
      · have hrecord : heap.record o = {} := by
          rw [record, Array.getElem?_eq_none (Nat.le_of_not_lt ho), Option.getD_none]
        refine ⟨_, @Prints.record heap path (o :: path) o [] hnew ?_, ?_⟩
        · rw [fieldValues, hrecord]
          exact .nil
        · rw [hrecord]
          rfl

theorem exists_prints_debug (heap : Heap) (value : Value) :
    ∃ print, heap.Prints [] value print [] ∧ print.text = value.debug heap :=
  exists_prints (exists_prints_object .nil nofun (Nat.lt_succ_self _)) value

/-! ### What is printed -/

mutual

theorem Prints.shows {seen after : List ObjectId} {value : Value} {print : Print}
    (h : heap.Prints seen value print after) : heap.Shows value print := by
  match h with
  | .scalar h => exact .scalar h
  | .list h => exact .list h.shows
  | .cycle _ => exact .cycle _
  | .record _ h => exact .record h.shows

theorem PrintsAll.shows {seen after : List ObjectId} {values : List Value} {prints : List Print}
    (h : heap.PrintsAll seen values prints after) : heap.ShowsAll values prints := by
  match h with
  | .nil => exact .nil
  | .cons first follow => exact .cons first.shows follow.shows

end

theorem PrintsAll.exists_of_mem {seen after : List ObjectId} {values : List Value}
    {prints : List Print} (h : heap.PrintsAll seen values prints after) {print : Print}
    (hprint : print ∈ prints) : ∃ value ended, heap.Prints seen value print ended := by
  match h with
  | .cons first follow =>
    rcases List.mem_cons.1 hprint with rfl | hprint
    · exact ⟨_, _, first⟩
    · exact first.after_eq ▸ follow.exists_of_mem hprint

theorem Prints.at {seen after above : List ObjectId} {value : Value} {print sub : Print}
    (h : heap.Prints seen value print after) (hsub : print.At above sub) :
    ∃ held ended, heap.Prints (above ++ seen) held sub ended := by
  induction hsub with
  | root => exact ⟨value, after, h⟩
  | item _ hitem ih =>
    obtain ⟨held, ended, hheld⟩ := ih
    cases hheld with
    | list hitems => exact hitems.exists_of_mem hitem
  | field _ hvalue ih =>
    obtain ⟨held, ended, hheld⟩ := ih
    cases hheld with
    | record _ hvalues => exact hvalues.exists_of_mem hvalue

theorem Prints.marks {value : Value} {print : Print} (h : heap.Prints [] value print []) :
    print.Marks := by
  constructor
  · intro above o hcycle
    obtain ⟨held, ended, hheld⟩ := h.at hcycle
    rw [List.append_nil] at hheld
    cases hheld with
    | cycle hmem => exact hmem
  · intro above o typeName names values hrecord
    obtain ⟨held, ended, hheld⟩ := h.at hrecord
    rw [List.append_nil] at hheld
    cases hheld with
    | record hnew _ => exact hnew

/-! ### Cycles of the graph -/

/-- The second object is in a field of the first, or in a list that is. -/
def Points (heap : Heap) (o next : ObjectId) : Prop :=
  ∃ value ∈ heap.fieldValues o, value.Mentions next

def Reaches (heap : Heap) (value : Value) (o : ObjectId) : Prop :=
  ∃ first, value.Mentions first ∧ Relation.ReflTransGen heap.Points first o

theorem ShowsAll.exists_value {values : List Value} {prints : List Print}
    (h : heap.ShowsAll values prints) {print : Print} (hprint : print ∈ prints) :
    ∃ value ∈ values, heap.Shows value print := by
  match h with
  | .cons first follow =>
    rcases List.mem_cons.1 hprint with rfl | hprint
    · exact ⟨_, List.mem_cons_self, first⟩
    · obtain ⟨value, hvalue, hshows⟩ := follow.exists_value hprint
      exact ⟨value, List.mem_cons_of_mem _ hvalue, hshows⟩

theorem ShowsAll.exists_print {values : List Value} {prints : List Print}
    (h : heap.ShowsAll values prints) {value : Value} (hvalue : value ∈ values) :
    ∃ print ∈ prints, heap.Shows value print := by
  match h with
  | .cons first follow =>
    rcases List.mem_cons.1 hvalue with rfl | hvalue
    · exact ⟨_, List.mem_cons_self, first⟩
    · obtain ⟨print, hprint, hshows⟩ := follow.exists_print hvalue
      exact ⟨print, List.mem_cons_of_mem _ hprint, hshows⟩

theorem Shows.at {value : Value} {print sub : Print} {above : List ObjectId}
    (h : heap.Shows value print) (hsub : print.At above sub) :
    ∃ held, heap.Shows held sub ∧ ∀ o, held.Mentions o →
      heap.Reaches value o ∧ ∀ outer ∈ above, Relation.TransGen heap.Points outer o := by
  induction hsub with
  | root => exact ⟨value, h, fun o ho => ⟨⟨o, ho, .refl⟩, nofun⟩⟩
  | item _ hitem ih =>
    obtain ⟨held, hheld, hreach⟩ := ih
    cases hheld with
    | list hitems =>
      obtain ⟨inner, hinner, hshows⟩ := hitems.exists_value hitem
      exact ⟨inner, hshows, fun o ho => hreach o (.item hinner ho)⟩
  | @field above o _ _ _ _ _ hvalue ih =>
    obtain ⟨held, hheld, hreach⟩ := ih
    cases hheld with
    | record hvalues =>
      obtain ⟨inner, hinner, hshows⟩ := hvalues.exists_value hvalue
      obtain ⟨⟨first, hfirst, hpath⟩, houter⟩ := hreach o (.object o)
      refine ⟨inner, hshows, fun next hnext => ?_⟩
      have hpoints : heap.Points o next := ⟨inner, hinner, hnext⟩
      refine ⟨⟨first, hfirst, hpath.tail hpoints⟩, List.forall_mem_cons.2 ⟨.single hpoints, ?_⟩⟩
      exact fun outer hmem => (houter outer hmem).tail hpoints

/-- The object is printed in full in this place. -/
def InFull (heap : Heap) (print : Print) (above : List ObjectId) (o : ObjectId) : Prop :=
  ∃ typeName names values, print.At above (.record o typeName names values) ∧
    heap.ShowsAll (heap.fieldValues o) values

section
variable {print : Print} (hnone : ∀ above o, ¬ print.At above (.cycle o))
include hnone

theorem inFull_of_mentions {above : List ObjectId} {sub : Print} (hsub : print.At above sub)
    {held : Value} (hshows : heap.Shows held sub) {o : ObjectId} (h : held.Mentions o) :
    heap.InFull print above o := by
  induction h generalizing sub with
  | object o =>
    cases hshows with
    | scalar h => cases h
    | cycle => exact absurd hsub (hnone above o)
    | record hvalues => exact ⟨_, _, _, hsub, hvalues⟩
  | item hitem _ ih =>
    cases hshows with
    | scalar h => cases h
    | list hitems =>
      obtain ⟨inner, hinner, hshows⟩ := hitems.exists_print hitem
      exact ih (hsub.item hinner) hshows

theorem InFull.next {above : List ObjectId} {o next : ObjectId}
    (h : heap.InFull print above o) (hpoints : heap.Points o next) :
    heap.InFull print (o :: above) next := by
  obtain ⟨typeName, names, values, hsub, hvalues⟩ := h
  obtain ⟨value, hvalue, hmentions⟩ := hpoints
  obtain ⟨inner, hinner, hshows⟩ := hvalues.exists_print hvalue
  exact inFull_of_mentions hnone (hsub.field hinner) hshows hmentions

theorem InFull.path {above : List ObjectId} {o last : ObjectId} (h : heap.InFull print above o)
    (hpath : Relation.ReflTransGen heap.Points o last) :
    ∃ below, above ⊆ below ∧ heap.InFull print below last := by
  induction hpath with
  | refl => exact ⟨above, List.Subset.refl _, h⟩
  | @tail middle last _ hpoints ih =>
    obtain ⟨below, hsub, hmiddle⟩ := ih
    exact ⟨middle :: below, List.subset_cons_of_subset _ hsub, hmiddle.next hnone hpoints⟩

end

/-- Something is marked as a cycle if and only if an object can be reached that can be reached from
itself. -/
theorem exists_cycle_iff {value : Value} {print : Print} (shows : heap.Shows value print)
    (marks : print.Marks) : (∃ above o, print.At above (.cycle o)) ↔
      ∃ o, heap.Reaches value o ∧ Relation.TransGen heap.Points o o := by
  constructor
  · rintro ⟨above, o, hcycle⟩
    obtain ⟨held, hheld, hreach⟩ := shows.at hcycle
    cases hheld with
    | cycle =>
      obtain ⟨hreaches, houter⟩ := hreach o (.object o)
      exact ⟨o, hreaches, houter o (marks.cycle above o hcycle)⟩
  · rintro ⟨o, ⟨first, hfirst, hpath⟩, hcycle⟩
    by_contra hnone
    simp only [not_exists] at hnone
    -- without a mark the object is printed in full, and once more inside itself
    obtain ⟨above, _, hfull⟩ :=
      (inFull_of_mentions hnone .root shows hfirst).path hnone hpath
    obtain ⟨next, hnext, hback⟩ := Relation.TransGen.head'_iff.1 hcycle
    obtain ⟨below, hsub, _, _, _, hinner, _⟩ := (hfull.next hnone hnext).path hnone hback
    exact marks.record _ _ _ _ _ hinner (hsub List.mem_cons_self)

/-- Printing ends, with one print and the list it began with. The print shows the value and marks
the cycles, and is what the text of the value is the text of. -/
theorem prints_debug (heap : Heap) (value : Value) :
    ∃ print, heap.Prints [] value print [] ∧
      (∀ other after, heap.Prints [] value other after → other = print ∧ after = []) ∧
      heap.Shows value print ∧ print.Marks ∧
      ((∃ above o, print.At above (.cycle o)) ↔
        ∃ o, heap.Reaches value o ∧ Relation.TransGen heap.Points o o) ∧
      value.debug heap = print.text ∧
      value.display heap = match value with
        | .string s => s
        | _ => print.text := by
  obtain ⟨print, hprint, htext⟩ := exists_prints_debug heap value
  refine ⟨print, hprint, fun other after h => ⟨h.unique hprint, h.after_eq⟩, hprint.shows,
    hprint.marks, exists_cycle_iff hprint.shows hprint.marks, htext.symm, ?_⟩
  cases value <;> first | rfl | exact htext.symm

example :
    let leaf : Record := { typeName := "Leaf", fields := [("v", .int 0)] }
    let pair : Record :=
      { typeName := "Pair", fields := [("a", .object 0), ("b", .object 0), ("me", .object 1)] }
    (Value.object 1).debug { objects := #[leaf, pair] } =
      "Pair \x7b a: Leaf \x7b v: 0 \x7d, b: Leaf \x7b v: 0 \x7d, me: <cycle> \x7d" := by
  decide +kernel

end Heap
end ObjectNavigation
