import ObjectNavigation.Proofs.Node.Constant
import ObjectNavigation.Proofs.Value.Exact
import ObjectNavigation.Proofs.Value.Walk

/-!
Terms of integer arithmetic: operators over constants and properties that are integers for a source
(`Tree.IntTerm`). Such a term has a value over the unbounded integers (`Tree.exact`), and the steps
that lead to it in the order in which they are taken (`Tree.steps`): those of the children of a
node, one child after another, and then its own. What comes of the steps (`Tree.conclusion`) is put
together from what comes of those of the children as an outcome is from outcomes.
-/

namespace ObjectNavigation

namespace Body

/-- The integer that a leaf has for a source. -/
def int? (heap : Heap) (source : Value) : Body → Option Int64
  | const value => value.int?
  | property name => (heap.walk [name] source).bind Value.int?
  | _ => none

/-- An operator with some slots, a negation with one, or a leaf that is an integer. -/
def IntTerm (heap : Heap) (source : Value) (slots : Nat) : Body → Prop
  | arithmetic _ => slots ≠ 0
  | negate => slots = 1
  | body => slots = 0 ∧ (body.int? heap source).isSome

def exact (heap : Heap) (source : Value) (operands : List Int) : Body → Int
  | arithmetic op => op.foldInts operands
  | negate => -operands.headD 0
  | body => (body.int? heap source).elim 0 Int64.toInt

def steps (operands : List Int) : Body → List IntStep
  | arithmetic op => op.foldSteps operands
  | negate => operands.map .negate
  | _ => []

end Body

namespace Tree

mutual

/-- Nothing but operators and integer leaves, and no slot is empty. -/
def IntTerm (heap : Heap) (source : Value) : Tree → Prop
  | node body slots =>
    body.IntTerm heap source slots.length ∧ IntTerms heap source slots

def IntTerms (heap : Heap) (source : Value) : List (Option Tree) → Prop
  | [] => True
  | none :: _ => False
  | some child :: rest => child.IntTerm heap source ∧ IntTerms heap source rest

end

mutual

def exact (heap : Heap) (source : Value) : Tree → Int
  | node body slots => body.exact heap source (slotsExact heap source slots)

def slotsExact (heap : Heap) (source : Value) : List (Option Tree) → List Int
  | [] => []
  | none :: rest => slotsExact heap source rest
  | some child :: rest => child.exact heap source :: slotsExact heap source rest

end

mutual

/-- The steps that lead to the value, those of the children of a node before its own. -/
def steps (heap : Heap) (source : Value) : Tree → List IntStep
  | node body slots =>
    slotsSteps heap source slots ++ body.steps (slotsExact heap source slots)

def slotsSteps (heap : Heap) (source : Value) : List (Option Tree) → List IntStep
  | [] => []
  | none :: rest => slotsSteps heap source rest
  | some child :: rest => child.steps heap source ++ slotsSteps heap source rest

end

def conclusion (heap : Heap) (source : Value) (tree : Tree) : Except EvalError Value :=
  IntStep.conclude (tree.steps heap source) (.ofInt (tree.exact heap source))

def slotConclusion (heap : Heap) (source : Value) : Option Tree → Except EvalError Value
  | some child => child.conclusion heap source
  | none => .error default

end Tree

/-! ### Bodies -/

open IntStep (InRange conclude offence)

namespace Body
variable {heap : Heap} {source : Value} {body : Body} {operands : List Int}

theorem isReference_of_int? {n : Int64} (h : body.int? heap source = some n) :
    body.isReference = true := by
  cases body with
  | const value =>
    cases value with
    | int n => rfl
    | _ => cases h
  | property name => rfl
  | _ => cases h

theorem exists_of_int?_property {name : String} {n : Int64}
    (h : (property name).int? heap source = some n) :
    ∃ o, source = .object o ∧ heap.get? o name = some (.int n) := by
  obtain ⟨value, hwalk, hint⟩ := Option.bind_eq_some_iff.1 h
  obtain ⟨o, hsource, hfield⟩ := @Heap.walk_concat_eq_some heap [] _ _ _ hwalk
  cases value with
  | int held =>
    cases hint
    cases hsource
    exact ⟨o, rfl, hfield⟩
  | _ => cases hint

theorem isReference_of_intTerm {slots : Nat} (h : body.IntTerm heap source slots) :
    body.isReference = true := by
  cases body with
  | arithmetic op => rfl
  | negate => rfl
  | _ =>
    obtain ⟨n, hn⟩ := Option.isSome_iff_exists.1 h.2
    exact isReference_of_int? hn

theorem inRange_exact (term : body.IntTerm heap source operands.length)
    (hoperands : ∀ n ∈ operands, InRange n) (h : (body.steps operands).findSome? offence = none) :
    InRange (body.exact heap source operands) := by
  have hleaf : InRange ((body.int? heap source).elim 0 Int64.toInt) := by
    cases body.int? heap source with
    | none => decide
    | some n => exact IntStep.inRange_toInt n
  cases body with
  | arithmetic op =>
    cases operands with
    | nil => exact (by decide : InRange 0)
    | cons first rest => exact Operation.inRange_foldFrom (hoperands first List.mem_cons_self) h
  | negate =>
    obtain ⟨operand, rfl⟩ := List.length_eq_one_iff.1 term
    rw [List.findSome?_eq_none_iff] at h
    exact IntStep.inRange_result (h _ List.mem_cons_self)
  | _ => exact hleaf

end Body

namespace Tree
variable {heap : Heap} {source : Value} {slots : List (Option Tree)}

theorem intTerm_child {next : NodeId} {index : Nat} {entry : NodeId × Tree}
    (term : IntTerms heap source slots) (h : entry ∈ child? next slots index) :
    entry.2.IntTerm heap source :=
  of_child? (IntTerm heap source) (IntTerms heap source) (fun _ => False.elim) (fun _ _ => id)
    term h

theorem exists_child_of_intTerms (next : NodeId) {index : Nat}
    (term : IntTerms heap source slots) (h : index < slots.length) :
    ∃ entry, entry ∈ child? next slots index :=
  exists_child? (IntTerms heap source) (fun _ => id) (fun _ _ => And.right) next term h

theorem IntTerm.sub {tree sub : Tree} {id : NodeId} (hsub : tree.Sub id sub)
    (term : tree.IntTerm heap source) : sub.IntTerm heap source := by
  induction hsub with
  | root => exact term
  | child _ h ih => exact intTerm_child ih.2 h

mutual

theorem IntTerm.isReference {tree : Tree} (term : tree.IntTerm heap source) :
    tree.isReference = true := by
  match tree with
  | .node body slots =>
    rw [Tree.isReference, Body.isReference_of_intTerm term.1,
      isReference_of_intTerms term.2]
    rfl

theorem isReference_of_intTerms {slots : List (Option Tree)}
    (term : IntTerms heap source slots) : slotsReference slots = true := by
  match slots with
  | [] => rfl
  | some child :: rest =>
    rw [slotsReference, term.1.isReference, isReference_of_intTerms term.2]
    rfl

end

theorem length_slotsExact (term : IntTerms heap source slots) :
    (slotsExact heap source slots).length = slots.length := by
  induction slots with
  | nil => rfl
  | cons slot rest ih =>
    cases slot with
    | none => exact term.elim
    | some child => exact congrArg (· + 1) (ih term.2)

mutual

/-- The value is in range if nothing stands against the steps. -/
theorem IntTerm.inRange {tree : Tree} (term : tree.IntTerm heap source)
    (h : (tree.steps heap source).findSome? offence = none) :
    InRange (tree.exact heap source) := by
  match tree with
  | .node body slots =>
    rw [steps, List.findSome?_append, Option.or_eq_none_iff] at h
    have hbody := term.1
    rw [← length_slotsExact term.2] at hbody
    exact Body.inRange_exact hbody (inRange_of_intTerms term.2 h.1) h.2

theorem inRange_of_intTerms {slots : List (Option Tree)}
    (term : IntTerms heap source slots)
    (h : (slotsSteps heap source slots).findSome? offence = none) :
    ∀ n ∈ slotsExact heap source slots, InRange n := by
  match slots with
  | [] => simp [slotsExact]
  | some child :: rest =>
    rw [slotsSteps, List.findSome?_append, Option.or_eq_none_iff] at h
    exact List.forall_mem_cons.2
      ⟨term.1.inRange h.1, inRange_of_intTerms term.2 h.2⟩

end

/-! ### Conclusions -/

theorem mapM_slotConclusion (term : IntTerms heap source slots) :
    slots.mapM (slotConclusion heap source) =
      conclude (slotsSteps heap source slots) ((slotsExact heap source slots).map Value.ofInt) := by
  induction slots with
  | nil => rfl
  | cons slot rest ih =>
    cases slot with
    | none => exact term.elim
    | some child =>
      rw [List.mapM_cons, ih term.2, slotsSteps, slotsExact, List.map_cons,
        IntStep.conclude_append _ _ (Value.ofInt (child.exact heap source))]
      show child.conclusion heap source >>= _ = _
      rw [conclusion]
      unfold conclude
      cases (child.steps heap source).findSome? offence with
      | some error => rfl
      | none => cases (slotsSteps heap source rest).findSome? offence <;> rfl

theorem conclusion_leaf {body : Body} {n : Int64} (h : body.int? heap source = some n) :
    (node body []).conclusion heap source = .ok (.int n) := by
  have hbody : body.steps [] = [] ∧ body.exact heap source [] = n.toInt := by
    cases body with
    | arithmetic _ | negate => cases h
    | _ => exact ⟨rfl, congrArg (fun found => found.elim 0 Int64.toInt) h⟩
  rw [conclusion, steps, exact, slotsSteps, slotsExact, hbody.1, hbody.2, Value.ofInt,
    Int64.ofInt_toInt]
  rfl

theorem conclusion_const {value : Value}
    (term : (Body.const value).IntTerm heap source slots.length) :
    (node (.const value) slots).conclusion heap source = .ok value := by
  obtain ⟨hlength, hint⟩ := term
  cases List.length_eq_zero_iff.1 hlength
  obtain ⟨n, hn⟩ := Option.isSome_iff_exists.1 hint
  rw [conclusion_leaf hn]
  cases value with
  | int held =>
    cases hn
    rfl
  | _ => cases hn

/-- The graph in which the operator is applied makes no difference to integers. -/
theorem conclusion_arithmetic {op : Operation} (hne : slots ≠ [])
    (term : IntTerms heap source slots) (held : Heap) :
    (node (.arithmetic op) slots).conclusion heap source =
      slots.mapM (slotConclusion heap source) >>= fun
        | [] => .error (.missingChild op.kind 0)
        | value :: rest => Body.fold op held value rest := by
  rw [mapM_slotConclusion term, conclusion, steps,
    IntStep.conclude_append _ _ ((slotsExact heap source slots).map Value.ofInt)]
  cases hslots : (slotsSteps heap source slots).findSome? offence with
  | some error =>
    rw [IntStep.conclude_eq_error_iff.2 hslots]
    rfl
  | none =>
    rw [IntStep.conclude_of_none hslots]
    have hrange := inRange_of_intTerms term hslots
    have hlength := length_slotsExact term
    rw [exact, Body.exact, Body.steps]
    cases hvalues : slotsExact heap source slots with
    | nil =>
      rw [hvalues] at hlength
      exact absurd (List.length_eq_zero_iff.1 hlength.symm) hne
    | cons first rest =>
      rw [hvalues] at hrange
      obtain ⟨hfirst, hrest⟩ := List.forall_mem_cons.1 hrange
      exact (Body.fold_ints held hfirst hrest).symm

theorem conclusion_negate {child : Tree} (term : child.IntTerm heap source) (held : Heap) :
    (node .negate [some child]).conclusion heap source =
      child.conclusion heap source >>= fun value => value.negate held := by
  have hsteps : (node .negate [some child]).steps heap source =
      child.steps heap source ++ [.negate (child.exact heap source)] := by
    rw [steps, slotsSteps, slotsSteps, List.append_nil]
    rfl
  rw [conclusion, conclusion, hsteps, IntStep.conclude_append _ _
    (Value.ofInt (child.exact heap source))]
  cases hchild : (child.steps heap source).findSome? offence with
  | some error =>
    rw [IntStep.conclude_eq_error_iff.2 hchild]
    rfl
  | none =>
    rw [IntStep.conclude_of_none hchild]
    exact (Value.negate_int held (term.inRange hchild)).symm

/-- The conclusion is an integer or an error, so what is alike is equal. -/
theorem eq_conclusion_of_alike {tree : Tree} {outcome : Except EvalError Value}
    (h : Alike Value.Same outcome (tree.conclusion heap source)) :
    outcome = tree.conclusion heap source := by
  rw [conclusion, conclude] at h ⊢
  cases hfirst : (tree.steps heap source).findSome? offence with
  | some error =>
    rw [hfirst] at h
    cases h
    rfl
  | none =>
    rw [hfirst] at h
    cases h with
    | @ok value _ hsame =>
      cases value with
      | int n =>
        simp only [Value.Same, Value.erase] at hsame
        rw [hsame]
        rfl
      | _ => cases hsame

/-! ### Constants -/

theorem slotConclusion_of_child {next : NodeId} {index : Nat} {entry : NodeId × Tree}
    (h : entry ∈ child? next slots index) :
    slotConclusion heap source slots[index]?.join = entry.2.conclusion heap source := by
  rw [slot_of_child? h]
  rfl

mutual

theorem IntTerm.constantOutcome_eq {tree : Tree} (term : tree.IntTerm heap source)
    (constant : tree.isConstant = true) :
    tree.constantOutcome = tree.conclusion heap source := by
  match tree with
  | .node body slots =>
    obtain ⟨hbody, hslots⟩ := term
    have hoperands (hconstant : slotsConstant slots = true) :
        (List.range slots.length).mapM (slotOutcome slots) =
          slots.mapM (slotConclusion heap source) := by
      rw [funext (slotOutcome_eq slots),
        mapM_range_slots slots fun slot => slot.elim (.error default) constantOutcome]
      exact mapM_constantOutcome hslots hconstant
    cases body with
    | const value =>
      rw [conclusion_const hbody]
      rfl
    | arithmetic op =>
      rw [isConstant, Bool.and_eq_true] at constant
      rw [conclusion_arithmetic (List.ne_nil_of_length_pos (Nat.pos_of_ne_zero hbody)) hslots {},
        ← hoperands constant.2]
      rfl
    | negate =>
      rw [isConstant, Bool.and_eq_true] at constant
      obtain ⟨slot, rfl⟩ := List.length_eq_one_iff.1 hbody
      cases slot with
      | none => exact hslots.elim
      | some child =>
        rw [slotsConstant, Bool.and_eq_true] at constant
        rw [conclusion_negate hslots.1 {}, ← hslots.1.constantOutcome_eq constant.2.1]
        rfl
    | property name => cases constant
    | chain | list | method _ | staticMethod _ _ | host _ => cases hbody.2

theorem mapM_constantOutcome {slots : List (Option Tree)}
    (term : IntTerms heap source slots) (constant : slotsConstant slots = true) :
    (slots.mapM fun slot => slot.elim (.error default) constantOutcome) =
      slots.mapM (slotConclusion heap source) := by
  match slots with
  | [] => rfl
  | some child :: rest =>
    rw [slotsConstant, Bool.and_eq_true] at constant
    rw [List.mapM_cons, List.mapM_cons, mapM_constantOutcome term.2 constant.2]
    congr 1
    exact term.1.constantOutcome_eq constant.1

end

end Tree
end ObjectNavigation
