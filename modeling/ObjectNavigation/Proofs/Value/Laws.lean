import ObjectNavigation.Proofs.Value.Equality
import ObjectNavigation.Proofs.Value.Walk

/-!
The laws of equality. On every graph equality is symmetric and transitive, every value but a NaN
equals itself, and two handles are equal exactly if they name one object or the contents of their
objects are equal (`Value.eq_laws`). The walk through the graph plays no part in this: a relation
whose related values correspond is contained in equality, whatever cycles the graph has.

A list equals itself although it may hold a NaN. For transitivity one identity therefore has to
belong to one list (`Heap.Sharing`), which is so as long as lists are made by `Heap.newList`.
-/

namespace ObjectNavigation

/-! ### Equality of floats -/

open Float.Model (UnpackedFloat)

theorem compare_finite_iff (s t : UnpackedFloat.Sign) {m n : Nat} {i j : Int} (hm : 0 < m)
    (hn : 0 < n) :
    (UnpackedFloat.finite s m i hm).compare (.finite t n j hn) = some .eq ↔
      s = t ∧ i = j ∧ m = n := by
  have hthen : (compare i j).then (compare m n) = .eq ↔ i = j ∧ m = n := by
    rw [Ordering.then_eq_eq, compare_eq_iff_eq, compare_eq_iff_eq]
  cases s <;> cases t
  case positive.positive =>
    show some _ = _ ↔ _
    rw [Option.some.injEq, hthen]
    simp only [true_and]
  case negative.negative =>
    show some (Ordering.swap _) = _ ↔ _
    rw [Option.some.injEq, Ordering.swap_eq_eq, hthen]
    simp only [true_and]
  case negative.positive | positive.negative => exact iff_of_false nofun nofun

/-- Floats are equal as numbers if they are one and the same and no NaN, or two zeros. -/
theorem compare_eq_iff (a b : UnpackedFloat) :
    a.compare b = some .eq ↔
      (a = b ∧ a.isNaN = false) ∨ ∃ s t, a = .zero s ∧ b = .zero t := by
  constructor
  · intro h
    cases a with
    | notANumber => cases h
    | infinity s =>
      cases b with
      | infinity t => cases s <;> cases t <;> first | exact .inl ⟨rfl, rfl⟩ | cases h
      | _ => cases s <;> cases h
    | zero s =>
      cases b with
      | zero t => exact .inr ⟨s, t, rfl, rfl⟩
      | infinity t | finite t => cases t <;> cases h
      | notANumber => cases h
    | finite s m i hm =>
      cases b with
      | finite t n j hn =>
        obtain ⟨rfl, rfl, rfl⟩ := (compare_finite_iff s t hm hn).1 h
        exact .inl ⟨rfl, rfl⟩
      | infinity t => cases t <;> cases h
      | zero t => cases s <;> cases h
      | notANumber => cases h
  · rintro (⟨rfl, h⟩ | ⟨s, t, rfl, rfl⟩)
    · cases a with
      | notANumber => cases h
      | infinity s => cases s <;> rfl
      | zero s => rfl
      | finite s m i hm => exact (compare_finite_iff s s hm hm).2 ⟨rfl, rfl, rfl⟩
    · rfl

theorem float_beq_iff (x y : Float) :
    (x == y) = true ↔ x.toModel.unpack.compare y.toModel.unpack = some .eq := by
  show (x.toModel.unpack.compare y.toModel.unpack == some .eq) = true ↔ _
  rw [beq_iff_eq]

theorem float_beq_symm {x y : Float} (h : (x == y) = true) : (y == x) = true := by
  rw [float_beq_iff, compare_eq_iff] at h ⊢
  rcases h with ⟨heq, hnan⟩ | ⟨s, t, hx, hy⟩
  · exact .inl ⟨heq.symm, heq ▸ hnan⟩
  · exact .inr ⟨t, s, hy, hx⟩

theorem float_beq_trans {x y z : Float} (h : (x == y) = true) (h' : (y == z) = true) :
    (x == z) = true := by
  rw [float_beq_iff, compare_eq_iff] at h h' ⊢
  rcases h with ⟨heq, hnan⟩ | ⟨s, t, hx, hy⟩
  · rwa [heq]
  · rcases h' with ⟨heq, _⟩ | ⟨_, u, _, hz⟩
    · exact .inr ⟨s, t, hx, heq ▸ hy⟩
    · exact .inr ⟨s, u, hx, hz⟩

theorem float_beq_self_iff (x : Float) : (x == x) = true ↔ x.isNaN = false := by
  rw [float_beq_iff, compare_eq_iff]
  show _ ↔ x.toModel.unpack.isNaN = false
  constructor
  · rintro (⟨_, h⟩ | ⟨s, _, h, _⟩)
    · exact h
    · rw [h]
      rfl
  · exact fun h => .inl ⟨rfl, h⟩

/-! ### Lists and their identities -/

namespace Value

mutual

/-- Every list of the value is the one that was made under its identity. -/
def Shares (made : List (List Value)) : Value → Prop
  | list id items => made[id]? = some items ∧ AllShare made items
  | _ => True

def AllShare (made : List (List Value)) : List Value → Prop
  | [] => True
  | item :: rest => item.Shares made ∧ AllShare made rest

end

mutual

theorem Shares.append {made : List (List Value)} {value : Value} (h : value.Shares made)
    (later : List (List Value)) : value.Shares (made ++ later) := by
  match value with
  | .null | .bool _ | .int _ | .float _ | .string _ | .object _ => simp [Shares]
  | .list id items =>
    rw [Shares] at h ⊢
    refine ⟨?_, h.2.append later⟩
    rw [List.getElem?_append_left (List.getElem?_eq_some_iff.1 h.1).1]
    exact h.1

theorem AllShare.append {made : List (List Value)} {items : List Value}
    (h : AllShare made items) (later : List (List Value)) : AllShare (made ++ later) items := by
  match items with
  | [] => trivial
  | item :: rest => exact ⟨h.1.append later, AllShare.append h.2 later⟩

end

end Value

namespace Heap
variable {heap : Heap} {made : List (List Value)}

/-- The lists made so far, in the order of their identities, are those that the graph holds. -/
structure Sharing (heap : Heap) (made : List (List Value)) : Prop where
  lists : heap.lists = made.length
  fields : ∀ o name value, heap.get? o name = some value → value.Shares made

namespace Sharing

theorem empty : Sharing {} [] where
  lists := rfl
  fields o name value h := by
    rw [get?, record, Array.getElem?_eq_none (Nat.zero_le o)] at h
    cases h

theorem newList (sharing : heap.Sharing made) {items : List Value} (h : Value.AllShare made items) :
    (heap.newList items).2.Sharing (made ++ [items]) ∧
      (heap.newList items).1.Shares (made ++ [items]) := by
  refine ⟨⟨?_, fun o name value hvalue => ?_⟩, ?_, h.append [items]⟩
  · rw [List.length_append, ← sharing.lists]
    rfl
  · exact (sharing.fields o name value hvalue).append [items]
  · rw [sharing.lists, List.getElem?_concat_length]

theorem set (sharing : heap.Sharing made) (o : ObjectId) (name : String) {value : Value}
    (h : value.Shares made) : (heap.set o name value).Sharing made := by
  refine ⟨sharing.lists, fun other key held hheld => ?_⟩
  by_cases hwritten : other = o ∧ key = name
  · obtain ⟨rfl, rfl⟩ := hwritten
    have valid := lt_of_get? hheld
    rw [size_set] at valid
    rw [get?_set_self valid] at hheld
    cases hheld
    exact h
  · rw [get?_set_of_ne hwritten] at hheld
    exact sharing.fields other key held hheld

theorem allocate (sharing : heap.Sharing made) {record : Record}
    (h : ∀ field ∈ record.fields, field.2.Shares made) :
    (heap.allocate record).2.Sharing made := by
  refine ⟨sharing.lists, fun o name value hvalue => ?_⟩
  rw [get?, Heap.record, Heap.allocate, Array.getElem?_push] at hvalue
  split at hvalue
  next => exact h (name, value) (Record.mem_fields_of_get? hvalue)
  next => exact sharing.fields o name value hvalue

end Sharing

end Heap

/-! ### Symmetry and transitivity -/

namespace Heap
variable {heap : Heap} {v w u : Value}

/-- Values that agree correspond, the values they hold agreeing again. -/
theorem Agrees.corresponds (h : heap.Agrees [] v w) : heap.Corresponds (heap.Agrees []) v w := by
  rcases h.cases with h | h
  · exact h
  · obtain ⟨hmem⟩ := h
    cases hmem

theorem Corresponds.symm {related : Value → Value → Prop} (h : heap.Corresponds related v w) :
    heap.Corresponds (fun v w => related w v) w v := by
  cases h with
  | null => exact .null
  | bool b => exact .bool b
  | int n => exact .int n
  | float h => exact .float (float_beq_symm h)
  | string s => exact .string s
  | sameList id xs ys => exact .sameList id ys xs
  | list items => exact .list items.flip
  | sameObject o => exact .sameObject o
  | object typeName names fields =>
    refine .object typeName.symm (fun name => (names name).symm) ?_
    exact fun name v w hv hw => fields name w v hw hv

theorem Agrees.symm (h : heap.Agrees [] v w) : heap.Agrees [] w v :=
  ⟨fun v w => heap.Agrees [] w v, fun _ _ h => .inl h.corresponds.symm, h⟩

/-- Values that agree, at once or by way of a third one. -/
inductive Linked (heap : Heap) (made : List (List Value)) : Value → Value → Prop where
  | once {v w : Value} (h : heap.Agrees [] v w) : Linked heap made v w
  | twice {v w u : Value} (hv : v.Shares made) (hw : w.Shares made) (hu : u.Shares made)
      (h : heap.Agrees [] v w) (h' : heap.Agrees [] w u) : Linked heap made v u

theorem Linked.items {made : List (List Value)} {xs ys zs : List Value}
    (hxs : Value.AllShare made xs) (hys : Value.AllShare made ys) (hzs : Value.AllShare made zs)
    (h : List.Forall₂ (heap.Agrees []) xs ys) (h' : List.Forall₂ (heap.Agrees []) ys zs) :
    List.Forall₂ (heap.Linked made) xs zs := by
  induction h generalizing zs with
  | nil =>
    cases h'
    exact .nil
  | cons hx _ ih =>
    cases h' with
    | cons hy hrest =>
      exact .cons (.twice hxs.1 hys.1 hzs.1 hx hy) (ih hxs.2 hys.2 hzs.2 hrest)

/-- Where one of the two steps is from a value to itself the other is left, and otherwise both look
into the same places. -/
theorem Linked.corresponds {made : List (List Value)} (sharing : heap.Sharing made)
    (h : heap.Linked made v u) : heap.Corresponds (heap.Linked made) v u := by
  have honce : ∀ {v w}, heap.Agrees [] v w → heap.Corresponds (heap.Linked made) v w :=
    fun h => h.corresponds.mono fun _ _ h => .once h
  cases h with
  | once h => exact honce h
  | twice hv hw hu h h' =>
    cases h.corresponds with
    | null | bool b | int n | string s | sameObject o => exact honce h'
    | float heq =>
      cases h'.corresponds with
      | float heq' => exact .float (float_beq_trans heq heq')
    | sameList id xs ys =>
      -- A list of this identity has one content, wherever it is met.
      rw [Value.Shares] at hv hw
      cases hv.1.symm.trans hw.1
      exact honce h'
    | list items =>
      cases h'.corresponds with
      | sameList id ys zs =>
        rw [Value.Shares] at hw hu
        cases hw.1.symm.trans hu.1
        exact honce h
      | list items' =>
        rw [Value.Shares] at hv hw hu
        exact .list (Linked.items hv.2 hw.2 hu.2 items items')
    | object typeName names fields =>
      cases h'.corresponds with
      | sameObject => exact honce h
      | object typeName' names' fields' =>
        refine .object (typeName.trans typeName')
          (fun name => (names name).trans (names' name)) ?_
        intro name v u hv hu
        obtain ⟨w, hw⟩ := Record.mem_names_iff.1 ((names name).1 (Record.mem_names_iff.2 ⟨v, hv⟩))
        exact .twice (sharing.fields _ name v hv) (sharing.fields _ name w hw)
          (sharing.fields _ name u hu) (fields name v w hv hw) (fields' name w u hw hu)

theorem Agrees.trans {made : List (List Value)} (sharing : heap.Sharing made)
    (hv : v.Shares made) (hw : w.Shares made) (hu : u.Shares made) (h : heap.Agrees [] v w)
    (h' : heap.Agrees [] w u) : heap.Agrees [] v u :=
  ⟨heap.Linked made, fun _ _ h => .inl (h.corresponds sharing), .twice hv hw hu h h'⟩

theorem objectEq_iff (distinct : heap.Distinct) (a b : ObjectId) :
    heap.objectEq a b = true ↔ a = b ∨ (heap.record a).eq heap (heap.record b) = true := by
  rw [objectEq, objectsEq_iff distinct le_rfl, Record.eq,
    Record.eqWith_iff (distinct a) (distinct b)]
  constructor
  · intro h
    cases h.corresponds with
    | sameObject => exact .inl rfl
    | object typeName names fields =>
      refine .inr ⟨typeName, names, fun name v w hv hw => ?_⟩
      exact (Value.eq_iff distinct).2 (fields name v w hv hw)
  · rintro (rfl | ⟨typeName, names, fields⟩)
    · exact .of_corresponds (.sameObject a)
    · refine .of_corresponds (.object typeName names fun name v w hv hw => ?_)
      exact (Value.eq_iff distinct).1 (fields name v w hv hw)

end Heap

theorem Value.eq_self_iff (heap : Heap) (value : Value) :
    value.eq heap value = true ↔ ∀ x, value = .float x → x.isNaN = false := by
  cases value with
  | float x =>
    rw [Value.eq, eqWith, float_beq_self_iff]
    simp
  | list id items => simp [Value.eq, eqWith]
  | object o => simp [Value.eq, eqWith, Heap.pairBudget, Heap.objectsEq]
  | _ => simp [Value.eq, eqWith]

/-- Equality is symmetric and transitive, all but a NaN equals itself, and handles are equal
exactly if they name one object or the contents are equal field by field. -/
theorem Value.eq_laws {heap : Heap} (distinct : heap.Distinct) {made : List (List Value)}
    (sharing : heap.Sharing made) :
    (∀ a b : Value, a.eq heap b = true → b.eq heap a = true) ∧
      (∀ a b c : Value, a.Shares made → b.Shares made → c.Shares made → a.eq heap b = true →
        b.eq heap c = true → a.eq heap c = true) ∧
      (∀ a : Value, a.eq heap a = true ↔ ∀ x, a = .float x → x.isNaN = false) ∧
      ∀ a b : ObjectId, heap.objectEq a b = true ↔
        a = b ∨ (heap.record a).eq heap (heap.record b) = true := by
  refine ⟨fun a b h => ?_, fun a b c ha hb hc h h' => ?_, Value.eq_self_iff heap,
    Heap.objectEq_iff distinct⟩
  · rw [Value.eq_iff distinct] at h ⊢
    exact h.symm
  · rw [Value.eq_iff distinct] at h h' ⊢
    exact h.trans sharing ha hb hc h'

/-- A loop of one object and a loop of two, all of which hold one list with a NaN. -/
def Heap.unrolled : Heap :=
  let (list, heap) := ({} : Heap).newList [.float (0.0 / 0.0)]
  let heap := (heap.allocate { typeName := "Node", fields := [("held", list)] }).2
  let heap := (heap.allocate { typeName := "Node", fields := [("held", list)] }).2
  let heap := (heap.allocate { typeName := "Node", fields := [("next", .null), ("held", list)] }).2
  ((heap.set 0 "next" (.object 0)).set 1 "next" (.object 2)).set 2 "next" (.object 1)

theorem Heap.unrolled_equal :
    Heap.unrolled.Distinct ∧ Heap.unrolled.Sharing [[.float (0.0 / 0.0)]] ∧
      (Value.object 0).eq Heap.unrolled (.object 1) = true ∧
      (Value.object 1).eq Heap.unrolled (.object 2) = true ∧
      (Value.object 0).eq Heap.unrolled (.object 2) = true ∧
      (Value.object 2).eq Heap.unrolled (.object 0) = true := by
  have distinct : Heap.unrolled.Distinct := by
    intro o
    match o with
    | 0 => decide
    | 1 => decide
    | 2 => decide
    | o + 3 => exact List.nodup_nil
  have hnan : Value.AllShare [] [Value.float (0.0 / 0.0)] := ⟨trivial, trivial⟩
  have hlist := Heap.Sharing.empty.newList hnan
  have hobject (o : ObjectId) : (Value.object o).Shares [[Value.float (0.0 / 0.0)]] := by
    simp [Value.Shares]
  have hnull : Value.null.Shares [[Value.float (0.0 / 0.0)]] := by
    simp [Value.Shares]
  have sharing : Heap.unrolled.Sharing [[.float (0.0 / 0.0)]] := by
    refine .set (.set (.set (.allocate (.allocate (.allocate hlist.1 ?_) ?_) ?_) _ _ (hobject 0))
      _ _ (hobject 2)) _ _ (hobject 1)
    · exact List.forall_mem_singleton.2 hlist.2
    · exact List.forall_mem_singleton.2 hlist.2
    · exact List.forall_mem_cons.2 ⟨hnull, List.forall_mem_singleton.2 hlist.2⟩
  obtain ⟨symm, trans, _⟩ := Value.eq_laws distinct sharing
  have hnext : (Value.object 0).eq Heap.unrolled (.object 1) = true := by decide
  have hlast : (Value.object 1).eq Heap.unrolled (.object 2) = true := by decide
  have hboth := trans _ _ _ (hobject 0) (hobject 1) (hobject 2) hnext hlast
  exact ⟨distinct, sharing, hnext, hlast, hboth, symm _ _ hboth⟩

end ObjectNavigation
