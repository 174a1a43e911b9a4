import ObjectNavigation.Proofs.Engine.Settling
import ObjectNavigation.Proofs.Node.Inspected

/-!
Purity of constant nodes. A get of a constant node of the library gives `Tree.outcomeIn` of the
graph that it is evaluated in, whatever the source, the context and the gateway are. So two gets
agree, and a value that the first keeps is right later on, if what the operators below the node see
looks alike in both graphs (`Tree.constant_is_pure`). It need not: addition writes out the objects
that it is given, and a graph may change between two gets (`Tree.constant_is_impure`).
-/

namespace ObjectNavigation

/-- The value is the outcome of the constant expression in each of the graphs. -/
def Tree.RightIn (graphs : Heap → Prop) (sub : Tree) (value : Value) : Prop :=
  ∀ heap, graphs heap → Alike Value.Same (.ok value) (sub.outcomeIn heap)

theorem Collects.alike {outcome : Nat → Except EvalError Value} {indices : List Nat}
    {found : Except EvalError (List Value)}
    (h : Collects (fun index answer => Alike Value.Same answer (outcome index)) indices found) :
    Alike Value.AllSame found (indices.mapM outcome) := by
  induction h with
  | nil => exact .ok rfl
  | @first index rest error h =>
    rw [List.mapM_cons]
    generalize outcome index = answer at h
    cases h
    exact .error error
  | @later index rest value error h _ ih =>
    rw [List.mapM_cons]
    generalize outcome index = answer at h
    generalize rest.mapM outcome = answers at ih
    cases h
    cases ih
    exact .error error
  | @cons index rest value values h _ ih =>
    rw [List.mapM_cons]
    generalize outcome index = answer at h
    generalize rest.mapM outcome = answers at ih
    cases h with
    | ok hvalue =>
      cases ih with
      | ok hvalues =>
        refine .ok ?_
        rw [Value.AllSame, List.map_cons, List.map_cons, hvalue, hvalues]

theorem Eval.Settles.bind_alike {α β : Type} {objects : Array Record} {property : Constants → Prop}
    {same : α → α → Prop} {same' : β → β → Prop} {reach : Nat → Handle}
    {gateway : Option Registry} {script : BodyScript α} {outcome : Except EvalError α}
    (first : (script.run reach gateway).Settles objects property (Alike same · outcome))
    {next : α → BodyScript β} {follow : α → Except EvalError β}
    (hnext : ∀ value value', outcome = .ok value' → same value value' →
      ((next value).run reach gateway).Settles objects property (Alike same' · (follow value'))) :
    ((script >>= next).run reach gateway).Settles objects property
      (Alike same' · (outcome >>= follow)) := by
  apply first.bind
  · intro error halike
    cases halike
    exact .error error
  · intro value halike
    cases halike with
    | ok h => exact hnext value _ rfl h

namespace Tree
variable {env : Env} {home : TreeId}

theorem settles_constant_read {body : Body} {slots : List (Option Tree)}
    (constant : (Tree.node body slots).isConstant = true) {heap : Heap}
    {property : Constants → Prop} {reach : Nat → Handle} (gateway : Option Registry)
    (hreach : (∀ value, body ≠ .const value) → slotsConstant slots = true →
      ∀ index < slots.length, ∀ source, ((reach index).get source).Settles heap.objects property
        (Alike Value.Same · (slotOutcomeIn heap slots index)))
    (source : Value) :
    ((body.read (seat (.node body slots)) source).run reach gateway).Settles heap.objects property
      (Alike Value.Same · ((Tree.node body slots).outcomeIn heap)) := by
  have hoperands : (∀ value, body ≠ .const value) → slotsConstant slots = true →
      ((Body.operands (seat (.node body slots)) source).run reach gateway).Settles heap.objects
        property (Alike Value.AllSame · ((List.range slots.length).mapM (slotOutcomeIn heap slots)))
      := by
    intro hbody hslots
    refine Eval.Settles.mono ?_ fun outcome => Collects.alike
    exact Eval.Settles.mapM fun index hindex =>
      hreach hbody hslots index (List.mem_range.1 hindex) source
  cases body with
  | const value => exact .done (.ok rfl)
  | arithmetic op =>
    rw [isConstant, Bool.and_eq_true] at constant
    apply (hoperands (by simp) constant.2).bind_alike
    intro values values' _ hsame
    cases values <;> cases values' <;> simp [Value.AllSame] at hsame
    · exact .done (.error _)
    · apply Eval.Settles.heap
      intro held hheld
      apply Eval.Settles.done
      exact Body.alike_fold op (Heap.erase_eq_of_objects_eq hheld) hsame.1 hsame.2
  | negate =>
    rw [isConstant, Bool.and_eq_true] at constant
    have hlength : 0 < slots.length := by
      rw [List.length_pos_iff]
      simpa using constant.1
    apply (Eval.Settles.getValue (hreach (by simp) constant.2 0 hlength source)).bind_alike
    intro value value' _ hsame
    apply Eval.Settles.heap
    intro held hheld
    apply Eval.Settles.done
    rw [alike_same_iff, ← Value.negate_erase, ← Value.negate_erase heap, hsame,
      Heap.erase_eq_of_objects_eq hheld]
  | list =>
    rw [isConstant] at constant
    apply (hoperands (by simp) constant).bind_alike
    intro values values' _ hsame
    apply Eval.Settles.newList
    intro id
    refine .ok ?_
    rw [Value.Same, Value.erase_list, Value.erase_list, hsame]
  | property _ | chain | method _ | staticMethod _ _ | host _ => cases constant

/-- A get of a constant node has the outcome of the expression in the graph, and keeps only what is
right in all graphs in which the same is seen. -/
theorem settles_constant_get {tree sub : Tree} {id : NodeId} (hsub : tree.Sub id sub)
    (standard : sub.all Body.isStandard = true) (constant : sub.isConstant = true)
    {graphs : Heap → Prop} {heap : Heap} (hheap : graphs heap)
    (looks : ∀ heap', graphs heap' → ∀ value ∈ sub.inspected, value.LooksAlike heap heap')
    (source : Value) :
    ((sub.handle env home id).get source).Settles heap.objects
      (Constants.Holds tree home (RightIn graphs)) (Alike Value.Same · (sub.outcomeIn heap)) := by
  induction id, sub using child_induction generalizing source with
  | node id body slots ih =>
    rw [handle_get (Engine.substitute?_of_constant constant env home id)]
    apply Eval.Settles.traced
    apply Eval.Settles.visiting
    apply Eval.Settles.cached
      (fun constants value hconstants hvalue => hconstants id _ value hsub hvalue heap hheap)
      (ask_constant_of_standard standard env home id) (fun constants h => h.check id)
    · intro _ constants value hconstants hvalue
      apply hconstants.keep hsub
      intro heap' hheap'
      rw [← outcomeIn_eq (looks heap' hheap')]
      exact hvalue
    · apply settles_constant_read constant
      intro hbody hslots index hindex source
      rw [all, Bool.and_eq_true] at standard
      obtain ⟨entry, hentry, hconstant⟩ := isConstant_child (id + 1) hslots hindex
      rw [slotOutcomeIn_of_child hentry, Engine.reach, child_eq, Option.mem_def.1 hentry]
      apply ih index entry hentry (hsub.child hentry) (all_child standard.2 hentry) hconstant
      intro heap' hheap' value hvalue
      exact looks heap' hheap' value (inspected_child_subset hbody constant hentry hvalue)

/-- Gets of a node that says it is constant agree, and so does a get that finds what an earlier one
kept, if what the operators below the node see looks alike in both graphs. -/
theorem constant_is_pure {tree : Tree} (standard : tree.all Body.isStandard = true) {id : NodeId}
    {asking world world' : World}
    (constant : ((tree.handleAt env home id).ask .constant asking).1 = .ok (.ok true))
    (blank : ∀ id, (world.constants.cell home id).value = none)
    (blank' : ∀ id, (world'.constants.cell home id).value = none)
    (looks : ∀ sub, tree.Sub id sub → ∀ value ∈ sub.inspected,
      value.LooksAlike world.heap world'.heap)
    (env' : Env) (source source' : Value) :
    ∃ outcome after outcome',
      (tree.handleAt env home id).get source world = (.ok outcome, after) ∧
      ((tree.handleAt env' home id).get source' world').1 = .ok outcome' ∧
      Alike Value.Same outcome outcome' ∧
      ∀ later : World, later.constants = after.constants →
        later.heap.objects = world'.heap.objects → ∀ source,
          ∃ answer, ((tree.handleAt env' home id).get source later).1 = .ok answer ∧
            Alike Value.Same answer outcome' := by
  cases hplace : tree.lookUp id with
  | error misuse =>
    rw [handleAt, hplace] at constant
    cases constant
  | ok place =>
    have hsub := Sub.of_lookUp hplace
    have hhandle : ∀ env, tree.handleAt env home id = place.subtree.handle env home id := by
      intro env
      rw [handleAt, hplace]
    have hconstant : place.subtree.isConstant = true := by
      rw [hhandle, ask_constant_of_standard (hsub.all standard)] at constant
      simpa using constant
    have hlooks := looks place.subtree hsub
    have hbetween : ∀ heap heap', (heap = world.heap ∨ heap = world'.heap) →
        (heap' = world.heap ∨ heap' = world'.heap) →
        ∀ value ∈ place.subtree.inspected, value.LooksAlike heap heap' := by
      rintro _ _ (rfl | rfl) (rfl | rfl) value hvalue
      · exact .refl world.heap value
      · exact hlooks value hvalue
      · exact (hlooks value hvalue).symm
      · exact .refl world'.heap value
    have houtcome := outcomeIn_eq hlooks
    obtain ⟨outcome, after, hget, halike, _, hafter⟩ :=
      settles_constant_get hsub (hsub.all standard) hconstant (.inl rfl)
        (fun heap' => hbetween _ heap' (.inl rfl)) source world rfl (.of_blank blank)
    have hsettles := fun source => @settles_constant_get env' home tree place.subtree id hsub
      (hsub.all standard) hconstant _ world'.heap (.inr rfl)
      (fun heap' => hbetween _ heap' (.inr rfl)) source
    obtain ⟨outcome', after', hget', halike', _⟩ :=
      hsettles source' world' rfl (.of_blank blank')
    rw [houtcome] at halike
    have hsame := halike'.symm Value.same_equivalence
    refine ⟨outcome, after, outcome', by rw [hhandle, hget], by rw [hhandle, hget'], ?_, ?_⟩
    · exact halike.trans Value.same_equivalence hsame
    · intro later hconstants hobjects source
      obtain ⟨answer, last, hlast, hanswer, _⟩ :=
        hsettles source later hobjects (hconstants ▸ hafter)
      exact ⟨answer, by rw [hhandle, hlast], hanswer.trans Value.same_equivalence hsame⟩

end Tree

def World.holding (n : Int64) : World where
  outside := { heap := { objects := #[{ typeName := "P", fields := [("x", .int n)] }] } }

def Tree.objectBesideSum : Tree :=
  .node .list
    [some (.node (.const (.object 0)) []),
      some (.node (.arithmetic .add)
        [some (.node (.const (.int 1)) []), some (.node (.const (.int 2)) [])])]

/-- The list is the same before and after the field of its object is written. -/
theorem objectBesideSum_is_pure :
    ∃ outcome after outcome',
      (Tree.objectBesideSum.handleAt {} 0 0).get .null (.holding 1) = (.ok outcome, after) ∧
      ((Tree.objectBesideSum.handleAt {} 0 0).get (.int 7) (.holding 2)).1 = .ok outcome' ∧
      Alike Value.Same outcome outcome' ∧
      ∀ later : World, later.constants = after.constants →
        later.heap.objects = (World.holding 2).heap.objects → ∀ source,
          ∃ answer, ((Tree.objectBesideSum.handleAt {} 0 0).get source later).1 = .ok answer ∧
            Alike Value.Same answer outcome' := by
  have looks : ∀ sub, Tree.objectBesideSum.Sub 0 sub → ∀ value ∈ sub.inspected,
      value.LooksAlike (World.holding 1).heap (World.holding 2).heap := by
    intro sub hsub value hvalue
    cases hsub.unique .root
    apply Value.LooksAlike.of_isObjectFree
    revert value
    decide
  exact @Tree.constant_is_pure {} 0 Tree.objectBesideSum (by decide) 0 {} (.holding 1) (.holding 2)
    rfl (fun _ => rfl) (fun _ => rfl) looks {} .null (.int 7)

def Tree.printedObject : Tree :=
  .node (.arithmetic .add)
    [some (.node (.const (.string "p=")) []), some (.node (.const (.object 0)) [])]

/-- The sum says it is constant, but it has another outcome after the field is written, and once it
has been evaluated it keeps the outcome that it had before. -/
theorem Tree.constant_is_impure :
    let node := Tree.printedObject.handleAt {} 0 0
    let kept : World :=
      { World.holding 2 with constants := (node.get .null (.holding 1)).2.constants }
    Tree.printedObject.all Body.isStandard = true ∧ (node.ask .constant {}).1 = .ok (.ok true) ∧
      (node.get .null (.holding 1)).1 = .ok (.ok (.string "p=P \x7b x: 1 \x7d")) ∧
      (node.get .null (.holding 2)).1 = .ok (.ok (.string "p=P \x7b x: 2 \x7d")) ∧
      (node.get .null kept).1 = .ok (.ok (.string "p=P \x7b x: 1 \x7d")) := by
  refine ⟨rfl, rfl, ?_, ?_, ?_⟩
  · rfl
  · rfl
  · rfl

end ObjectNavigation
