import ObjectNavigation.Proofs.Engine.Matching

/-!
Constants are invisible. Whatever calls on the nodes of a tree have come before, in whatever
contexts and states of the graph, and with whatever results, the next get or set of a node has the
outcome that it has in the evaluation without constants, calls the same methods with the same
arguments and leaves the same graph (`Tree.handleAt_agrees`). What differs is the identity of lists
alone: a list that is kept is one list for all later gets.
-/

namespace ObjectNavigation

/-- From states that are the same outside, both computations end with outcomes that are alike, in
states that are the same outside. Identities of lists make no difference. The property of the
constants is one the first computation relies on and keeps. -/
def Eval.Agrees {α : Type} (property : Constants → Prop) (same : α → α → Prop)
    (act act' : Eval α) : Prop :=
  ∀ world world', property world.constants → world.surface.erase = world'.surface.erase →
    ∃ answer answer' after after',
      act world = (.ok answer, after) ∧ act' world' = (.ok answer', after') ∧
        Alike same answer answer' ∧ after.surface.erase = after'.surface.erase ∧
          property after.constants

structure Handle.Agrees (property : Constants → Prop) (handle handle' : Handle) : Prop where
  get : ∀ source source', source.erase = source'.erase →
    (handle.get source).Agrees property Value.Same (handle'.get source')
  set : ∀ target target' value value', target.erase = target'.erase → value.erase = value'.erase →
    (handle.set target value).Agrees property Eq (handle'.set target' value')

theorem Eval.Agrees.imp {α : Type} {property property' : Constants → Prop} {same : α → α → Prop}
    {act act' : Eval α} (h : act.Agrees property same act')
    (himp : ∀ constants, property' constants → property constants)
    (preserves : act.Preserves property') : act.Agrees property' same act' :=
  Matches.imp h himp preserves

theorem Surface.telling_erase :
    Surface.Telling Surface.erase fun surface surface' => surface = surface' where
  between {surface surface'} h := ⟨surface', h, rfl⟩
  of_erase h := h
  of_sees h := congrArg _ h
  sight := {
    heap := fun h => congrArg Surface.heap h
    root := fun h => congrArg (fun surface : Surface => surface.settings.root) h
    withHeap := fun h heap => congrArg (Surface.withHeap · heap) h }
  call h registry call := by
    cases h
    exact ⟨rfl, rfl⟩

namespace Tree
variable {tree sub : Tree} {home : TreeId} {env : Env} {id : NodeId}

theorem handle_agrees (hsub : tree.Sub id sub) (reference : sub.isReference = true)
    (plain : env.Plain home) (respects : ∀ registry ∈ env.gateway, registry.Respects) :
    (sub.handle env home id).Agrees (Constants.Correct tree home) (sub.uncached env home id) := by
  have hmatches : (sub.handle env home id).Matches Surface.erase (Constants.Correct tree home)
      (sub.uncached env home id) := by
    refine Surface.telling_erase.handle (.self tree home) hsub reference plain rfl respects
      (fun id _ _ accessor haccessor => ?_) fun id _ _ accessor haccessor => ?_
    all_goals
      rw [plain id] at haccessor
      cases haccessor
  exact ⟨hmatches.get, hmatches.set⟩

/-! ### Histories -/

/-- The constants to which gets and sets of the nodes of a tree lead. Each may be made in any state
and context, and may fail or be cut short; what is kept for other trees may change in between. -/
inductive Reaches (tree : Tree) (home : TreeId) : Constants → Prop where
  | blank {constants : Constants} (h : ∀ id, constants.cell home id = {}) :
      Reaches tree home constants
  | get {world : World} (before : Reaches tree home world.constants) {env : Env}
      (plain : env.Plain home) (id : NodeId) (source : Value) :
      Reaches tree home ((tree.handleAt env home id).get source world).2.constants
  | set {world : World} (before : Reaches tree home world.constants) {env : Env}
      (plain : env.Plain home) (id : NodeId) (target value : Value) :
      Reaches tree home ((tree.handleAt env home id).set target value world).2.constants
  | other {constants after : Constants} (before : Reaches tree home constants)
      (h : ∀ id, after.cell home id = constants.cell home id) : Reaches tree home after

theorem handleAt_preserves (reference : tree.isReference = true) (plain : env.Plain home)
    (id : NodeId) :
    (tree.handleAt env home id).Preserves (Constants.Correct tree home) := by
  have hnone : ∀ id, ∀ accessor ∈ env.accessor home id,
      accessor.Preserves env (Constants.Correct tree home) := by
    intro id accessor haccessor
    rw [plain id] at haccessor
    cases haccessor
  refine handleAt_preserves_of_sub (fun id sub hsub => ?_) id
  exact handle_preserves (.self tree home) hsub (hsub.isReference reference) hnone

theorem Reaches.correct {constants : Constants} (reached : tree.Reaches home constants)
    (reference : tree.isReference = true) : constants.Correct tree home := by
  induction reached with
  | blank h => exact .of_blank fun id => by rw [h id]
  | get _ plain id source ih => exact (handleAt_preserves reference plain id).get source _ ih
  | set _ plain id target value ih =>
    exact (handleAt_preserves reference plain id).set target value _ ih
  | other _ h ih => exact ih.of_value_eq fun id => by rw [h id]

/-- After every history of a tree of the library without accessors, gets and sets of its nodes agree
with those of the evaluation without constants. -/
theorem handleAt_agrees_uncachedAt (reference : tree.isReference = true) (plain : env.Plain home)
    (respects : ∀ registry ∈ env.gateway, registry.Respects) (h : id < tree.size) :
    (tree.handleAt env home id).Agrees (tree.Reaches home) (tree.uncachedAt env home id) := by
  obtain ⟨place, hplace⟩ := Option.isSome_iff_exists.1 ((isSome_place?_iff tree id).2 h)
  have hlookUp : tree.lookUp id = .ok place := lookUp_eq_ok_iff.2 hplace
  have hsub := Sub.of_lookUp hlookUp
  have hagrees := handle_agrees hsub (hsub.isReference reference) plain respects
  have hhandle : tree.handleAt env home id = place.subtree.handle env home id := by
    rw [handleAt, hlookUp]
  have huncached : tree.uncachedAt env home id = place.subtree.uncached env home id := by
    rw [uncachedAt, hlookUp]
  rw [← hhandle, ← huncached] at hagrees
  have hcorrect : ∀ constants, tree.Reaches home constants → constants.Correct tree home :=
    fun _ reached => reached.correct reference
  constructor
  · intro source source' hsource
    exact (hagrees.get source source' hsource).imp hcorrect fun _ reached =>
      reached.get plain id source
  · intro target target' value value' htarget hvalue
    exact (hagrees.set target target' value value' htarget hvalue).imp hcorrect fun _ reached =>
      reached.set plain id target value

end Tree

def Tree.listCall : Tree :=
  .node (.staticMethod "Host" "echo") [some (.node .list [some (.node (.const (.int 1)) [])])]

def Env.echo : Env where
  gateway := some { statics := [("Host.echo", Behaviour.arguments.method "echo")] }

theorem listCall_agrees_after_get :
    let after := ((Tree.listCall.handleAt .echo 0 0).get .null {}).2
    (after.constants.cell 0 1).value.isSome = true ∧
      ∃ answer answer' last last',
        (Tree.listCall.handleAt .echo 0 0).get .null after = (.ok answer, last) ∧
        (Tree.listCall.uncachedAt .echo 0 0).get .null after = (.ok answer', last') ∧
        Alike Value.Same answer answer' ∧ last.surface.erase = last'.surface.erase ∧
        Tree.listCall.Reaches 0 last.constants := by
  refine ⟨by decide +kernel, ?_⟩
  have respects : ∀ registry ∈ Env.echo.gateway, registry.Respects := by
    rintro registry ⟨⟩ entry hentry
    cases List.mem_singleton.1 hentry
    exact Behaviour.respects_method .arguments "echo"
  have reached :
      Tree.listCall.Reaches 0 ((Tree.listCall.handleAt .echo 0 0).get .null {}).2.constants :=
    .get (.blank fun _ => rfl) (fun _ => rfl) 0 .null
  have hagrees : (Tree.listCall.handleAt .echo 0 0).Agrees (Tree.listCall.Reaches 0)
      (Tree.listCall.uncachedAt .echo 0 0) :=
    Tree.handleAt_agrees_uncachedAt (by decide) (fun _ => rfl) respects (by decide)
  exact hagrees.get .null .null rfl _ _ reached rfl

end ObjectNavigation
