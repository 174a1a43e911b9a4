import ObjectNavigation.Proofs.Engine.Accessors
import ObjectNavigation.Proofs.Engine.Settling
import ObjectNavigation.Proofs.Node.IntTerm

/-!
Integer arithmetic is exact or fails. A get of a term gives its conclusion: the exact value if
nothing stands against any step, and otherwise the error of the first step against which something
stands. That is so in every state to which a workspace can be led, whatever is kept for the nodes by
then (`Workspace.get_is_exact`).
-/

namespace ObjectNavigation

theorem Collects.eq_mapM {outcome : Nat → Except EvalError Value} {indices : List Nat}
    {found : Except EvalError (List Value)}
    (h : Collects (fun index answer => answer = outcome index) indices found) :
    found = indices.mapM outcome := by
  induction h with
  | nil => rfl
  | first h => rw [List.mapM_cons, ← h]; rfl
  | later h _ ih => rw [List.mapM_cons, ← h, ← ih]; rfl
  | cons h _ ih => rw [List.mapM_cons, ← h, ← ih]; rfl

/-- A term is no chain, so its body runs whatever accessors there are. -/
theorem Engine.substitute?_of_intTerm {heap : Heap} {source : Value} {body : Body} {slots : Nat}
    (term : body.IntTerm heap source slots) (env : Env) (home : TreeId) (id : NodeId) :
    substitute? env home id body = none := by
  cases body with
  | chain => cases term.2
  | _ => rfl

namespace Tree
variable {env : Env} {home : TreeId} {heap : Heap} {source : Value}

theorem settles_intTerm_read {body : Body} {slots : List (Option Tree)}
    (term : (node body slots).IntTerm heap source) {property : Constants → Prop}
    {reach : Nat → Handle} (gateway : Option Registry)
    (hreach : ∀ index < slots.length, ((reach index).get source).Settles heap.objects property
      (· = slotConclusion heap source slots[index]?.join)) :
    ((body.read (seat (.node body slots)) source).run reach gateway).Settles heap.objects property
      (· = (node body slots).conclusion heap source) := by
  obtain ⟨hbody, hslots⟩ := term
  cases body with
  | const value => exact .done (conclusion_const hbody).symm
  | property name =>
    obtain ⟨hlength, hint⟩ := hbody
    cases List.length_eq_zero_iff.1 hlength
    obtain ⟨n, hn⟩ := Option.isSome_iff_exists.1 hint
    rw [conclusion_leaf hn]
    obtain ⟨o, rfl, hfield⟩ := Body.exists_of_int?_property hn
    -- The field is read from whatever objects there are then, and they are still these.
    apply Eval.Settles.heap
    intro held hheld
    rw [← Heap.get?_eq_of_objects_eq hheld] at hfield
    simp only [hfield]
    exact .done rfl
  | arithmetic op =>
    have hoperands : ((Body.operands (seat (.node (.arithmetic op) slots)) source).run reach
        gateway).Settles heap.objects property
          (· = slots.mapM (slotConclusion heap source)) := by
      rw [← mapM_range_slots]
      refine Eval.Settles.mono ?_ fun outcome => Collects.eq_mapM
      exact Eval.Settles.mapM fun index hindex => hreach index (List.mem_range.1 hindex)
    have hne : slots ≠ [] := List.ne_nil_of_length_pos (Nat.pos_of_ne_zero hbody)
    apply hoperands.bind
    · intro error herror
      rw [conclusion_arithmetic hne hslots heap, ← herror]
      rfl
    · intro values hvalues
      have hconclusion := @conclusion_arithmetic heap source slots op hne hslots
      rw [← hvalues] at hconclusion
      cases values with
      | nil => exact .done (hconclusion heap).symm
      | cons first rest =>
        apply Eval.Settles.heap
        intro held _
        exact .done (hconclusion held).symm
  | negate =>
    obtain ⟨slot, rfl⟩ := List.length_eq_one_iff.1 hbody
    cases slot with
    | none => exact hslots.elim
    | some child =>
      have hoperand := hreach 0 (Nat.lt_succ_self 0)
      have hconclusion := fun held => conclusion_negate hslots.1 held
      apply (Eval.Settles.getValue hoperand).bind
      · intro error herror
        rw [hconclusion heap, show child.conclusion heap source = .error error from herror.symm]
        rfl
      · intro value hvalue
        apply Eval.Settles.heap
        intro held _
        rw [hconclusion held, show child.conclusion heap source = .ok value from hvalue.symm]
        exact .done rfl
  | chain | list | method _ | staticMethod _ _ | host _ => cases hbody.2

theorem IntTerm.settles_get {tree sub : Tree} {id : NodeId} (hsub : tree.Sub id sub)
    (term : sub.IntTerm heap source) :
    ((sub.handle env home id).get source).Settles heap.objects (Constants.Correct tree home)
      (· = sub.conclusion heap source) := by
  induction id, sub using child_induction with
  | node id body slots ih =>
    have reference := term.isReference
    rw [handle_get (Engine.substitute?_of_intTerm term.1 env home id)]
    apply Eval.Settles.traced
    apply Eval.Settles.visiting
    apply Eval.Settles.cached
    case right =>
      intro constants value hcorrect hvalue
      -- A kept value is right up to the identity of lists, and an integer has none.
      obtain ⟨constant, halike⟩ := hcorrect id _ value hsub hvalue
      rw [term.constantOutcome_eq constant] at halike
      exact eq_conclusion_of_alike halike
    case answers => exact ask_constant reference env home id
    case check => exact fun constants hcorrect => hcorrect.check id
    case keep =>
      intro constant constants value hcorrect hvalue
      apply hcorrect.keep hsub constant
      rw [term.constantOutcome_eq constant, ← hvalue]
      exact .ok rfl
    case h =>
      apply settles_intTerm_read term
      intro index hindex
      obtain ⟨entry, hentry⟩ := exists_child_of_intTerms (id + 1) term.2 hindex
      rw [slotConclusion_of_child hentry, Engine.reach, child_eq, Option.mem_def.1 hentry]
      exact ih index entry hentry (hsub.child hentry) (intTerm_child term.2 hentry)

end Tree

/-! ### Workspaces -/

namespace Workspace
variable {workspace : Workspace} {tree : Tree} {home : TreeId}

/-- A workspace that holds the tree by this name, to which scripts have led that reach trees, nodes
and accessors in any contexts. In between, all may change that is neither the tree nor kept for
it. -/
inductive Houses (tree : Tree) (home : TreeId) : Workspace → Prop where
  | start {workspace : Workspace} (htree : workspace.trees[home]? = some tree)
      (blank : ∀ id, workspace.constants.cell home id = {}) : Houses tree home workspace
  | run {workspace : Workspace} (before : Houses tree home workspace) {α : Type} (context : Context)
      (gateway : Option Registry) (depth : Nat) (script : Script Entry α) :
      Houses tree home
        (workspace.perform context (script.run (workspace.enter gateway depth) gateway)).2.2
  | change {workspace after : Workspace} (before : Houses tree home workspace)
      (htree : after.trees[home]? = some tree)
      (cells : ∀ id, after.constants.cell home id = workspace.constants.cell home id) :
      Houses tree home after

theorem Houses.correct (houses : Houses tree home workspace)
    (reference : tree.isReference = true) :
    workspace.trees[home]? = some tree ∧ workspace.constants.Correct tree home := by
  induction houses with
  | start htree blank => exact ⟨htree, .of_blank fun id => by rw [blank id]⟩
  | run _ context gateway depth script ih =>
    refine ⟨ih.1, ?_⟩
    have preserves := enter_preserves ih.1 reference gateway depth
    exact Eval.Preserves.run preserves gateway script _ ih.2
  | change _ htree cells ih => exact ⟨htree, ih.2.of_value_eq fun id => by rw [cells id]⟩

theorem handle_eq_of_sub (htree : workspace.trees[home]? = some tree) {sub : Tree}
    {node : Option NodeId} (hsub : tree.Sub (node.getD 0) sub)
    (plain : node = none → workspace.accessor? home 0 = none) (context : Context) :
    workspace.handle context ⟨home, node⟩ =
      sub.handle (workspace.callEnv (workspace.gateway context)) home (node.getD 0) := by
  cases node with
  | none =>
    cases hsub.unique .root
    rw [handle_tree htree, Tree.entrance]
    simp only [callEnv, plain rfl, Option.getD_none]
  | some id =>
    rw [handle_node htree]
    exact Tree.handleAt_of_sub hsub hsub.lt_size

/-- A get of a term, or of a node of it, gives the exact value if nothing stands against a step, and
otherwise the error of the first step against which something stands. -/
theorem get_is_exact {source : Value} {sub : Tree} {node : Option NodeId}
    (houses : Houses tree home workspace) (term : tree.IntTerm workspace.heap source)
    (hsub : tree.Sub (node.getD 0) sub) (plain : node = none → workspace.accessor? home 0 = none)
    (context : Context) :
    ∃ outcome after,
      workspace.perform context ((workspace.handle context ⟨home, node⟩).get source) =
        (.ok outcome, after) ∧
      (∀ n, outcome = .ok (.int n) ↔
        (∀ step ∈ sub.steps workspace.heap source, step.offence = none) ∧
          n.toInt = sub.exact workspace.heap source) ∧
      ((∃ n, outcome = .ok (.int n)) ∨ ∃ error, outcome = .error error ∧
        (sub.steps workspace.heap source).findSome? IntStep.offence = some error) := by
  obtain ⟨htree, correct⟩ := houses.correct term.isReference
  have hterm := term.sub hsub
  obtain ⟨outcome, after, hact, rfl, -⟩ := hterm.settles_get hsub (workspace.world context)
    rfl correct
  rw [handle_eq_of_sub htree hsub plain, perform, hact]
  refine ⟨_, _, rfl, fun n => IntStep.conclude_eq_int_iff hterm.inRange, ?_⟩
  rw [Tree.conclusion, IntStep.conclude]
  cases (sub.steps workspace.heap source).findSome? IntStep.offence with
  | none => exact .inl ⟨_, rfl⟩
  | some error => exact .inr ⟨error, rfl, rfl⟩

end Workspace

def Tree.sumBeyond : Tree :=
  .node (.arithmetic .add)
    [some (.node .negate [some (.node (.const (.int (-1))) [])]),
      some (.node (.const (.int 9223372036854775807)) []), some (.node (.property "x") [])]

def Workspace.summing : Workspace where
  outside := { heap := { objects := #[{ typeName := "P", fields := [("x", .int (-1))] }] } }
  trees := #[.sumBeyond]

/-- The sum of all three is the largest integer again, but the sum of the first two is beyond it.
That is so in a get that finds the first two kept. -/
theorem Workspace.overflow_in_the_middle :
    let called := (summing.perform {} ((Script.getValue ⟨0, none⟩ (.object 0)).run
      (summing.enter none delegationDepth) none)).2.2
    ([1, 3].all fun id => (called.constants.cell 0 id).value.isSome) = true ∧
      Tree.sumBeyond.exact called.heap (.object 0) = 9223372036854775807 ∧
      ∃ outcome after, called.perform {} ((called.handle {} ⟨0, none⟩).get (.object 0)) =
        (.ok outcome, after) ∧ outcome = .error (.overflow "+") := by
  intro called
  have houses : Houses .sumBeyond 0 called := .run (.start rfl fun _ => rfl) _ _ _ _
  have term : Tree.sumBeyond.IntTerm called.heap (.object 0) :=
    ⟨Nat.succ_ne_zero 2, ⟨rfl, ⟨⟨rfl, rfl⟩, trivial⟩, trivial⟩, ⟨⟨rfl, rfl⟩, trivial⟩,
      ⟨⟨rfl, rfl⟩, trivial⟩, trivial⟩
  obtain ⟨outcome, after, hget, hexact, hends⟩ :=
    @get_is_exact _ _ _ _ .sumBeyond none houses term .root (fun _ => rfl) {}
  refine ⟨by decide +kernel, rfl, outcome, after, hget, ?_⟩
  have hfirst : (Tree.sumBeyond.steps called.heap (.object 0)).findSome? IntStep.offence =
      some (.overflow "+") := rfl
  rcases hends with ⟨n, hn⟩ | ⟨error, rfl, herror⟩
  · rw [List.findSome?_eq_none_iff.2 ((hexact n).1 hn).1] at hfirst
    cases hfirst
  · rw [hfirst] at herror
    cases herror
    rfl

end ObjectNavigation
