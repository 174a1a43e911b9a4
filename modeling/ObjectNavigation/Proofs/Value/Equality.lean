import Mathlib.Data.Finset.Prod
import Mathlib.Data.List.Perm.Subperm
import Mathlib.Order.Bounds.Defs
import ObjectNavigation.Value.Equality

/-!
Equality of values as likeness of graphs. Of all relations whose related values correspond
(`Heap.Corresponds`: one and the same list or object, equal scalars, lists with related items, or
objects of one type whose fields have the same names and related values), equality is the greatest
(`Value.isGreatest_eq`). The walk ends on every graph, because it opens no pair of objects that is
open further up and there are no more pairs than the square of the number of objects
(`Heap.wellFounded_opens`).
-/

namespace ObjectNavigation

/-! ### Records -/

namespace Record
variable {left right : Record} {name : String} {value : Value}

theorem mem_names_iff : name ∈ left.names ↔ ∃ value, left.get? name = some value := by
  unfold names get?
  induction left.fields with
  | nil => simp
  | cons field rest ih =>
    rw [List.map_cons, List.mem_cons, ih, List.lookup_cons]
    by_cases h : name = field.1
    · simp [h]
    · simp [h, beq_eq_false_iff_ne.2 h]

theorem mem_fields_of_get? (h : left.get? name = some value) : (name, value) ∈ left.fields := by
  obtain ⟨before, after, heq, _⟩ := List.lookup_eq_some_iff.1 h
  rw [heq]
  exact List.mem_append_right before List.mem_cons_self

theorem get?_of_mem_fields (distinct : left.names.Nodup) {field : String × Value}
    (h : field ∈ left.fields) : left.get? field.1 = some field.2 := by
  unfold names at distinct
  unfold get?
  generalize left.fields = fields at distinct h ⊢
  induction fields with
  | nil => cases h
  | cons first rest ih =>
    rw [List.map_cons, List.nodup_cons] at distinct
    rcases List.mem_cons.1 h with rfl | h
    · rw [List.lookup_cons, beq_self_eq_true]
    · have hne : field.1 ≠ first.1 := by
        intro heq
        apply distinct.1
        rw [← heq]
        exact List.mem_map_of_mem h
      rw [List.lookup_cons, beq_eq_false_iff_ne.2 hne]
      exact ih distinct.2 h

/-- As many names, all of which the other record has, are the same names. -/
theorem eqWith_iff (hleft : left.names.Nodup) (hright : right.names.Nodup)
    {values : Value → Value → Bool} :
    eqWith values left right = true ↔
      left.typeName = right.typeName ∧ (∀ name, name ∈ left.names ↔ name ∈ right.names) ∧
        ∀ name v w, left.get? name = some v → right.get? name = some w → values v w = true := by
  have hlength : ∀ record : Record, record.fields.length = record.names.length := by
    intro record
    rw [names, List.length_map]
  unfold eqWith
  rw [Bool.and_eq_true, Bool.and_eq_true, beq_iff_eq, beq_iff_eq, List.all_eq_true, hlength,
    hlength]
  constructor
  · rintro ⟨⟨htype, hcount⟩, hall⟩
    have hfield : ∀ name v, left.get? name = some v →
        ∃ w, right.get? name = some w ∧ values v w = true := by
      intro name v hv
      have h := hall (name, v) (mem_fields_of_get? hv)
      cases hw : right.get? name with
      | none => simp [hw] at h
      | some w => exact ⟨w, rfl, by simpa [hw] using h⟩
    have hsub : left.names ⊆ right.names := by
      intro name hname
      obtain ⟨v, hv⟩ := mem_names_iff.1 hname
      obtain ⟨w, hw, _⟩ := hfield name v hv
      exact mem_names_iff.2 ⟨w, hw⟩
    -- As many names without repetition, all of them in the other record, are all of its names.
    have hperm := (List.subperm_of_subset hleft hsub).perm_of_length_le hcount.ge
    refine ⟨htype, fun name => hperm.mem_iff, ?_⟩
    intro name v w hv hw
    obtain ⟨w', hw', heq⟩ := hfield name v hv
    cases hw.symm.trans hw'
    exact heq
  · rintro ⟨htype, hnames, hvalues⟩
    have hperm := (List.perm_ext_iff_of_nodup hleft hright).2 hnames
    refine ⟨⟨htype, hperm.length_eq⟩, ?_⟩
    intro field hfield
    have hv := get?_of_mem_fields hleft hfield
    obtain ⟨w, hw⟩ := mem_names_iff.1 ((hnames field.1).1 (mem_names_iff.2 ⟨field.2, hv⟩))
    simp [hw, hvalues field.1 field.2 w hv hw]

theorem nodup_names_set (h : left.names.Nodup) : (left.set name value).names.Nodup := by
  rw [names_set]
  split
  next => exact h
  next hname => exact List.nodup_append.2 ⟨h, by simp, by grind⟩

end Record

/-! ### Values that correspond -/

namespace Heap

def Distinct (heap : Heap) : Prop :=
  ∀ o, (heap.record o).names.Nodup

theorem Distinct.set {heap : Heap} (distinct : heap.Distinct) (o : ObjectId) (name : String)
    (value : Value) : (heap.set o name value).Distinct := by
  intro other
  by_cases ho : other = o
  · subst ho
    by_cases h : other < heap.objects.size
    · rw [Heap.set, record_modify _ _ _ _ h, if_pos rfl]
      exact Record.nodup_names_set (distinct other)
    · rw [record, Array.getElem?_eq_none (by simpa using h)]
      exact List.nodup_nil
  · rw [record_set_of_ne heap name value ho]
    exact distinct other

theorem lt_of_get? {heap : Heap} {o : ObjectId} {name : String} {value : Value}
    (h : heap.get? o name = some value) : o < heap.objects.size := by
  by_contra hlt
  rw [get?, record, Array.getElem?_eq_none (Nat.le_of_not_lt hlt)] at h
  cases h

/-- The two values correspond, if the values they hold are related. -/
inductive Corresponds (heap : Heap) (related : Value → Value → Prop) : Value → Value → Prop where
  | null : Corresponds heap related .null .null
  | bool (b : Bool) : Corresponds heap related (.bool b) (.bool b)
  | int (n : Int64) : Corresponds heap related (.int n) (.int n)
  | float {x y : Float} (h : (x == y) = true) : Corresponds heap related (.float x) (.float y)
  | string (s : String) : Corresponds heap related (.string s) (.string s)
  | sameList (id : ListId) (xs ys : List Value) :
      Corresponds heap related (.list id xs) (.list id ys)
  | list {i j : ListId} {xs ys : List Value} (items : List.Forall₂ related xs ys) :
      Corresponds heap related (.list i xs) (.list j ys)
  | sameObject (o : ObjectId) : Corresponds heap related (.object o) (.object o)
  | object {a b : ObjectId} (typeName : (heap.record a).typeName = (heap.record b).typeName)
      (names : ∀ name, name ∈ (heap.record a).names ↔ name ∈ (heap.record b).names)
      (fields : ∀ name v w, heap.get? a name = some v → heap.get? b name = some w → related v w) :
      Corresponds heap related (.object a) (.object b)

theorem Corresponds.mono {heap : Heap} {related related' : Value → Value → Prop}
    (himp : ∀ v w, related v w → related' v w) {v w : Value} (h : heap.Corresponds related v w) :
    heap.Corresponds related' v w := by
  cases h with
  | null => exact .null
  | bool b => exact .bool b
  | int n => exact .int n
  | float h => exact .float h
  | string s => exact .string s
  | sameList id xs ys => exact .sameList id xs ys
  | list items => exact .list (items.imp himp)
  | sameObject o => exact .sameObject o
  | object typeName names fields =>
    exact .object typeName names fun name v w hv hw => himp v w (fields name v w hv hw)

/-- Two objects that are taken for equal. -/
inductive Assumed (pending : List (ObjectId × ObjectId)) : Value → Value → Prop where
  | intro {a b : ObjectId} (h : (a, b) ∈ pending) : Assumed pending (.object a) (.object b)

/-- The values are related by some relation whose related values correspond or are assumed. -/
def Agrees (heap : Heap) (pending : List (ObjectId × ObjectId)) (v w : Value) : Prop :=
  ∃ related : Value → Value → Prop,
    (∀ v w, related v w → heap.Corresponds related v w ∨ Assumed pending v w) ∧ related v w

namespace Agrees
variable {heap : Heap} {pending : List (ObjectId × ObjectId)} {v w : Value} {a b : ObjectId}

theorem cases (h : heap.Agrees pending v w) :
    heap.Corresponds (heap.Agrees pending) v w ∨ Assumed pending v w := by
  obtain ⟨related, hclosed, hrelated⟩ := h
  apply (hclosed v w hrelated).imp_left
  apply Corresponds.mono
  intro v w h
  exact ⟨related, hclosed, h⟩

theorem of_assumed (h : (a, b) ∈ pending) : heap.Agrees pending (.object a) (.object b) :=
  ⟨Assumed pending, fun _ _ h => .inr h, .intro h⟩

theorem of_corresponds (h : heap.Corresponds (heap.Agrees pending) v w) :
    heap.Agrees pending v w := by
  refine ⟨fun v w => heap.Corresponds (heap.Agrees pending) v w ∨ heap.Agrees pending v w, ?_,
    .inl h⟩
  intro v w h
  have hinto : ∀ v w, heap.Agrees pending v w →
      heap.Corresponds (heap.Agrees pending) v w ∨ heap.Agrees pending v w :=
    fun v w h => .inr h
  rcases h with h | h
  · exact .inl (h.mono hinto)
  · exact h.cases.imp_left fun h => h.mono hinto

theorem mono {pending' : List (ObjectId × ObjectId)} (hsub : pending ⊆ pending')
    (h : heap.Agrees pending v w) : heap.Agrees pending' v w := by
  obtain ⟨related, hclosed, hrelated⟩ := h
  refine ⟨related, ?_, hrelated⟩
  intro v w h
  apply (hclosed v w h).imp_right
  rintro ⟨hmem⟩
  exact .intro (hsub hmem)

/-- What agrees if a pair is assumed agrees without it, if the pair itself corresponds then. -/
theorem discharge
    (hpair : heap.Corresponds (heap.Agrees ((a, b) :: pending)) (.object a) (.object b))
    (h : heap.Agrees ((a, b) :: pending) v w) : heap.Agrees pending v w := by
  refine ⟨heap.Agrees ((a, b) :: pending), ?_, h⟩
  intro v w h
  rcases h.cases with h | h
  · exact .inl h
  · obtain ⟨hmem⟩ := h
    rcases List.mem_cons.1 hmem with heq | hmem
    · cases heq
      exact .inl hpair
    · exact .inr (.intro hmem)

end Agrees

end Heap

/-! ### The walk through two values -/

namespace Value
variable {heap : Heap} {pending : List (ObjectId × ObjectId)}
  {objects : ObjectId → ObjectId → Bool}

mutual

theorem agrees_of_eqWith
    (h : ∀ a b, objects a b = true → heap.Agrees pending (.object a) (.object b)) {v w : Value}
    (heq : v.eqWith objects w = true) : heap.Agrees pending v w := by
  match v, w with
  | .null, .null => exact .of_corresponds .null
  | .bool b, .bool c =>
    rw [eqWith, beq_iff_eq] at heq
    subst heq
    exact .of_corresponds (.bool b)
  | .int m, .int n =>
    rw [eqWith, beq_iff_eq] at heq
    subst heq
    exact .of_corresponds (.int m)
  | .float x, .float y =>
    rw [eqWith] at heq
    exact .of_corresponds (.float heq)
  | .string s, .string t =>
    rw [eqWith, beq_iff_eq] at heq
    subst heq
    exact .of_corresponds (.string s)
  | .list i xs, .list j ys =>
    rw [eqWith, Bool.or_eq_true, beq_iff_eq] at heq
    rcases heq with rfl | heq
    · exact .of_corresponds (.sameList i xs ys)
    · exact .of_corresponds (.list (agrees_of_itemsEqWith h heq))
  | .object a, .object b =>
    rw [eqWith] at heq
    exact h a b heq

theorem agrees_of_itemsEqWith
    (h : ∀ a b, objects a b = true → heap.Agrees pending (.object a) (.object b))
    {xs ys : List Value} (heq : itemsEqWith objects xs ys = true) :
    List.Forall₂ (heap.Agrees pending) xs ys := by
  match xs, ys with
  | [], [] => exact .nil
  | x :: xs, y :: ys =>
    rw [itemsEqWith, Bool.and_eq_true] at heq
    exact .cons (agrees_of_eqWith h heq.1) (agrees_of_itemsEqWith h heq.2)

end

mutual

theorem eqWith_of_agrees
    (h : ∀ a b, heap.Agrees pending (.object a) (.object b) → objects a b = true) {v w : Value}
    (hagrees : heap.Agrees pending v w) : v.eqWith objects w = true := by
  rcases hagrees.cases with hv | hv
  · cases hv with
    | null => rfl
    | bool b => rw [eqWith, beq_self_eq_true]
    | int n => rw [eqWith, beq_self_eq_true]
    | float heq => rw [eqWith, heq]
    | string s => rw [eqWith, beq_self_eq_true]
    | sameList id xs ys => rw [eqWith, beq_self_eq_true, Bool.true_or]
    | list items => rw [eqWith, itemsEqWith_of_agrees h items, Bool.or_true]
    | sameObject o => exact h o o hagrees
    | object => exact h _ _ hagrees
  · obtain ⟨hmem⟩ := hv
    exact h _ _ hagrees

theorem itemsEqWith_of_agrees
    (h : ∀ a b, heap.Agrees pending (.object a) (.object b) → objects a b = true)
    {xs ys : List Value} (hagrees : List.Forall₂ (heap.Agrees pending) xs ys) :
    itemsEqWith objects xs ys = true := by
  match xs, ys, hagrees with
  | [], [], .nil => rfl
  | x :: xs, y :: ys, .cons hx hxs =>
    rw [itemsEqWith, eqWith_of_agrees h hx, itemsEqWith_of_agrees h hxs, Bool.true_and]

end

/-- The objects stand at one place of the two values. -/
inductive Meets (a b : ObjectId) : Value → Value → Prop where
  | object : Meets a b (.object a) (.object b)
  | item {i j : ListId} {xs ys : List Value} {v w : Value} (hmem : (v, w) ∈ xs.zip ys)
      (h : Meets a b v w) : Meets a b (.list i xs) (.list j ys)

end Value

/-! ### The walk through the graph -/

namespace Heap
variable {heap : Heap} {pending : List (ObjectId × ObjectId)} {a b : ObjectId}

/-- How many pairs of objects are not pending. -/
def unopened (heap : Heap) (pending : List (ObjectId × ObjectId)) : Nat :=
  ((Finset.range heap.objects.size ×ˢ Finset.range heap.objects.size).filter (· ∉ pending)).card

theorem unopened_lt_pairBudget : heap.unopened pending < heap.pairBudget := by
  unfold unopened pairBudget
  apply Nat.lt_succ_of_le
  apply (Finset.card_filter_le _ _).trans
  rw [Finset.card_product, Finset.card_range]

theorem unopened_cons_lt (ha : a < heap.objects.size) (hb : b < heap.objects.size)
    (hnew : (a, b) ∉ pending) : heap.unopened ((a, b) :: pending) < heap.unopened pending := by
  apply Finset.card_lt_card
  rw [Finset.ssubset_iff_of_subset]
  · refine ⟨(a, b), ?_, by simp⟩
    simp [ha, hb, hnew]
  · intro pair hpair
    rw [Finset.mem_filter] at hpair ⊢
    exact ⟨hpair.1, fun hmem => hpair.2 (List.mem_cons_of_mem (a, b) hmem)⟩

/-- The second pair of objects being compared, with what is pending beside it, the walk goes on to
the first. -/
inductive Opens (heap : Heap) :
    List (ObjectId × ObjectId) × ObjectId × ObjectId →
    List (ObjectId × ObjectId) × ObjectId × ObjectId → Prop where
  | intro {pending : List (ObjectId × ObjectId)} {a b x y : ObjectId} {name : String} {v w : Value}
      (hne : a ≠ b) (hnew : (a, b) ∉ pending) (hv : heap.get? a name = some v)
      (hw : heap.get? b name = some w) (hmeets : Value.Meets x y v w) :
      Opens heap ((a, b) :: pending, x, y) (pending, a, b)

theorem wellFounded_opens (heap : Heap) : WellFounded heap.Opens := by
  apply Subrelation.wf _ (measure fun state => heap.unopened state.1).wf
  intro later earlier h
  obtain ⟨_, hnew, hv, hw, _⟩ := h
  exact unopened_cons_lt (lt_of_get? hv) (lt_of_get? hw) hnew

theorem agrees_of_objectsEq (distinct : heap.Distinct) {budget : Nat}
    (hbudget : heap.unopened pending < budget) (h : heap.objectsEq budget pending a b = true) :
    heap.Agrees pending (.object a) (.object b) := by
  induction budget generalizing pending a b with
  | zero => omega
  | succ budget ih =>
    rw [objectsEq, Bool.or_eq_true, Bool.or_eq_true, beq_iff_eq, List.contains_iff_mem,
      Record.eqWith_iff (distinct a) (distinct b)] at h
    by_cases hmem : (a, b) ∈ pending
    · exact .of_assumed hmem
    rcases h with (rfl | h) | ⟨htype, hnames, hvalues⟩
    · exact .of_corresponds (.sameObject a)
    · exact absurd h hmem
    · have hpair : heap.Corresponds (heap.Agrees ((a, b) :: pending)) (.object a) (.object b) := by
        refine .object htype hnames ?_
        intro name v w hv hw
        have hless := unopened_cons_lt (lt_of_get? hv) (lt_of_get? hw) hmem
        apply Value.agrees_of_eqWith _ (hvalues name v w hv hw)
        intro x y hxy
        exact ih (by omega) hxy
      exact Agrees.discharge hpair (.of_assumed List.mem_cons_self)

theorem objectsEq_of_agrees (distinct : heap.Distinct) (budget : Nat)
    (h : heap.Agrees pending (.object a) (.object b)) :
    heap.objectsEq budget pending a b = true := by
  induction budget generalizing pending a b with
  | zero => rfl
  | succ budget ih =>
    rw [objectsEq, Bool.or_eq_true, Bool.or_eq_true, beq_iff_eq, List.contains_iff_mem,
      Record.eqWith_iff (distinct a) (distinct b)]
    rcases h.cases with h | h
    · cases h with
      | sameObject => exact .inl (.inl rfl)
      | object htype hnames hvalues =>
        refine .inr ⟨htype, hnames, ?_⟩
        intro name v w hv hw
        have hagrees := (hvalues name v w hv hw).mono (List.subset_cons_self (a, b) pending)
        exact Value.eqWith_of_agrees (fun x y hxy => ih hxy) hagrees
    · obtain ⟨hmem⟩ := h
      exact .inl (.inr hmem)

theorem objectsEq_iff (distinct : heap.Distinct) {budget : Nat}
    (hbudget : heap.pairBudget ≤ budget) :
    heap.objectsEq budget pending a b = true ↔ heap.Agrees pending (.object a) (.object b) :=
  ⟨agrees_of_objectsEq distinct (unopened_lt_pairBudget.trans_le hbudget),
    objectsEq_of_agrees distinct budget⟩

end Heap

theorem Value.eq_iff {heap : Heap} (distinct : heap.Distinct) {v w : Value} :
    v.eq heap w = true ↔ heap.Agrees [] v w := by
  constructor
  · apply Value.agrees_of_eqWith
    intro a b
    exact (Heap.objectsEq_iff distinct le_rfl).1
  · apply Value.eqWith_of_agrees
    intro a b
    exact (Heap.objectsEq_iff distinct le_rfl).2

/-- The walk ends, no budget that suffices for all pairs runs out, and of all relations whose
related values correspond equality is the greatest. -/
theorem Value.isGreatest_eq (heap : Heap) (distinct : heap.Distinct) :
    WellFounded heap.Opens ∧
      (∀ budget pending, heap.pairBudget ≤ budget →
        heap.objectsEq budget pending = heap.objectsEq heap.pairBudget pending) ∧
      IsGreatest {related | ∀ v w, related v w → heap.Corresponds related v w}
        (fun v w => v.eq heap w = true) := by
  refine ⟨heap.wellFounded_opens, ?_, ?_, ?_⟩
  · intro budget pending hbudget
    funext a b
    rw [Bool.eq_iff_iff, Heap.objectsEq_iff distinct hbudget, Heap.objectsEq_iff distinct le_rfl]
  · intro v w h
    rcases ((Value.eq_iff distinct).1 h).cases with h | h
    · apply h.mono
      intro v w
      exact (Value.eq_iff distinct).2
    · obtain ⟨hmem⟩ := h
      cases hmem
  · intro related hclosed v w h
    apply (Value.eq_iff distinct).2
    exact ⟨related, fun v w h => .inl (hclosed v w h), h⟩

/-- Two loops whose fields stand in different orders. -/
def Heap.loops : Heap where
  objects := #[{ typeName := "Node", fields := [("n", .int 1), ("me", .object 0)] },
    { typeName := "Node", fields := [("me", .object 1), ("n", .int 1)] }]

theorem Heap.loops_equal :
    Heap.loops.Distinct ∧ (Value.object 0).eq Heap.loops (.object 1) = true ∧
      WellFounded Heap.loops.Opens ∧
      (∀ budget pending, Heap.loops.pairBudget ≤ budget →
        Heap.loops.objectsEq budget pending = Heap.loops.objectsEq Heap.loops.pairBudget pending) ∧
      IsGreatest {related | ∀ v w, related v w → Heap.loops.Corresponds related v w}
        (fun v w => v.eq Heap.loops w = true) := by
  have distinct : Heap.loops.Distinct := by
    intro o
    match o with
    | 0 => decide
    | 1 => decide
    | o + 2 => exact List.nodup_nil
  exact ⟨distinct, by decide, Value.isGreatest_eq Heap.loops distinct⟩

end ObjectNavigation
