import Mathlib.Logic.Basic
import ObjectNavigation.Proofs.Engine.Closure
import ObjectNavigation.Proofs.Engine.Seen
import ObjectNavigation.Workspace

/-!
Accessors in the place of nodes. An accessor is faithful if it has the outcomes that its node has
when it is interpreted, and leaves the same graph and the same root. Whatever faithful accessors a
tree has from call to call, all its calls come out as they do where it has none
(`Workspace.accessors_invisible`), although they lead to other constants. The root belongs to what
an accessor has to leave alone: the arguments of later methods are evaluated against it.
-/

namespace ObjectNavigation

namespace Constants

/-- What is usual of the constants of other trees, and correctness of those of this one. -/
def Sound (tree : Tree) (home : TreeId) (usual : Constants → Prop) (constants : Constants) : Prop :=
  usual constants ∧ constants.Correct tree home

/-- The property tells nothing about the constants of one tree. -/
def Regardless (home : TreeId) (property : Constants → Prop) : Prop :=
  ∀ constants after : Constants, property constants →
    (∀ other, other ≠ home → ∀ id, after.cell other id = constants.cell other id) → property after

namespace Regardless
variable {home : TreeId} {property : Constants → Prop} (regardless : Regardless home property)
include regardless

theorem check {constants : Constants} (h : property constants) (id : NodeId) :
    property (constants.check home id) :=
  regardless constants _ h fun _ hother _ =>
    constants.cell_check_of_ne fun heq => hother heq.1

theorem keep {constants : Constants} (h : property constants) (id : NodeId) (value : Value) :
    property (constants.keep home id value) :=
  regardless constants _ h fun _ hother _ =>
    constants.cell_keep_of_ne value fun heq => hother heq.1

theorem fit (tree : Tree) :
    Fit tree home (Sound tree home property) where
  correct h := h.2
  check h id := ⟨regardless.check h.1 id, h.2.check id⟩
  keep h _ _ _ hsub constant hvalue := ⟨regardless.keep h.1 _ _, h.2.keep hsub constant hvalue⟩

end Regardless

theorem Correct.regardless {tree : Tree} {home other : TreeId} (h : home ≠ other) :
    Regardless other (Correct tree home) :=
  fun _ _ hcorrect hsame => hcorrect.of_value_eq fun id => by rw [hsame home h id]

end Constants

/-! ### What other trees keep -/

theorem Eval.closed_preserves {home : TreeId} {property : Constants → Prop}
    (regardless : Constants.Regardless home property) :
    Eval.Closed home fun _ act => act.Preserves property where
  finish := .finish
  misuse _ _ h := h
  andThen first hnext := first.andThen hnext
  choose h world hworld := by
    obtain ⟨chosen, hchosen, hact⟩ := h world.constants
    rw [hact world rfl]
    exact hchosen world hworld
  check h id _ hworld := h _ (regardless.check hworld id)
  keep h id value _ hworld := h _ (regardless.keep hworld id value)
  traced h := h.traced
  visiting h := h.visiting

theorem Tree.carries_preserves {property : Constants → Prop} (gateway : Option Registry)
    (tree : Tree) : tree.Carries (fun _ act => act.Preserves property) gateway := by
  intro id sub _
  have hreach : ∀ {reach : Nat → Handle},
      (∀ index, (reach index).Has fun _ act => act.Preserves property) →
        ∀ index, (reach index).Preserves property :=
    fun h index => ⟨(h index).get, (h index).set, (h index).ask⟩
  exact {
    read := fun h _ => .run (hreach h) gateway _
    assign := fun h _ _ => .run (hreach h) gateway _
    ask := fun h _ => .run (hreach h) gateway _ }

namespace Tree
variable {env : Env} {home : TreeId} {property : Constants → Prop}

theorem handle_preserves_of_regardless (regardless : Constants.Regardless home property)
    (accessors : ∀ id, ∀ accessor ∈ env.accessor home id, accessor.Preserves env property)
    (id : NodeId) (tree : Tree) : (tree.handle env home id).Preserves property := by
  have hhas := (Eval.closed_preserves regardless).handle
    (fun id accessor h => ⟨(accessors id accessor h).read, (accessors id accessor h).assign⟩)
    (tree.carries_preserves env.gateway) id
  exact ⟨hhas.get, hhas.set, hhas.ask⟩

theorem entrance_preserves {tree : Tree}
    (accessors : ∀ accessor ∈ env.accessor home 0, accessor.Preserves env property)
    (h : (tree.handle env home 0).Preserves property) :
    (tree.entrance env home).Preserves property := by
  unfold entrance
  cases haccessor : env.accessor home 0 with
  | none => exact h
  | some accessor =>
    exact ⟨(accessors accessor haccessor).read, (accessors accessor haccessor).assign, h.ask⟩

end Tree

/-- The values kept for a tree of the library stay correct whatever accessors lead to. -/
theorem Workspace.enter_preserves {workspace : Workspace} {tree : Tree} {home : TreeId}
    (htree : workspace.trees[home]? = some tree) (reference : tree.isReference = true)
    (gateway : Option Registry) (depth : Nat) (entry : Entry) :
    (workspace.enter gateway depth entry).Preserves (Constants.Correct tree home) := by
  induction depth generalizing entry with
  | zero => exact .stray _
  | succ depth ih =>
    rw [enter]
    cases hother : workspace.trees[entry.tree]? with
    | none => exact .stray _
    | some other =>
      let env : Env :=
        { accessor := workspace.accessor?, gateway, enter := workspace.enter gateway depth }
      have haccessor : ∀ accessor : Accessor,
          accessor.Preserves env (Constants.Correct tree home) := fun accessor =>
        ⟨fun source => .run ih gateway _, fun target value => .run ih gateway _⟩
      have hhandle : ∀ id sub, other.Sub id sub →
          (sub.handle env entry.tree id).Preserves (Constants.Correct tree home) := by
        intro id sub hsub
        -- An accessor may lead back into the tree, or into one that keeps nothing for it.
        rcases eq_or_ne home entry.tree with hhome | hne
        · rw [← hhome] at hother ⊢
          rw [htree] at hother
          cases hother
          exact Tree.handle_preserves (.self tree home) hsub (hsub.isReference reference)
            fun _ accessor _ => haccessor accessor
        · exact Tree.handle_preserves_of_regardless (Constants.Correct.regardless hne)
            (fun _ accessor _ => haccessor accessor) id sub
      dsimp only
      cases entry.node with
      | none =>
        exact Tree.entrance_preserves (fun accessor _ => haccessor accessor) (hhandle 0 other .root)
      | some id => exact Tree.handleAt_preserves_of_sub hhandle id

/-! ### Faithful accessors -/

/-- From every state with such constants, the outcome is that of the second computation where no
constants are kept, and the same is told of the states after both. -/
def Eval.Imitates {α σ : Type} (tell : Surface → σ) (given usual : Constants → Prop)
    (same : α → α → Prop) (act act' : Eval α) : Prop :=
  ∀ world, given world.constants → ∃ answer answer' after after',
    act world = (.ok answer, after) ∧
      act' { world with constants := {} } = (.ok answer', after') ∧
        Alike same answer answer' ∧ tell after.surface = tell after'.surface ∧ usual after.constants

/-- The accessors of a tree do what its nodes do without accessors, as far as outcomes and what is
told of the state go. They may rely on what is usual of the constants of other trees, and leave it
so. -/
structure Env.Faithful {σ : Type} (env : Env) (tree : Tree) (home : TreeId) (tell : Surface → σ)
    (usual : Constants → Prop) : Prop where
  read : ∀ id sub accessor, tree.Sub id sub → env.accessor home id = some accessor → ∀ source,
    ((accessor.read source).run env.enter env.gateway).Imitates tell
      (Constants.Sound tree home usual) usual Value.Same
        ((sub.handle { gateway := env.gateway } home id).get source)
  assign : ∀ id sub accessor, tree.Sub id sub → env.accessor home id = some accessor →
    ∀ target value, ((accessor.assign target value).run env.enter env.gateway).Imitates tell
      (Constants.Sound tree home usual) usual Eq
        ((sub.handle { gateway := env.gateway } home id).set target value)

theorem Env.Faithful.of_plain {σ : Type} {env : Env} {tree : Tree} {home : TreeId}
    {tell : Surface → σ} {usual : Constants → Prop} (plain : env.Plain home) :
    env.Faithful tree home tell usual where
  read id sub accessor _ h := by
    rw [plain id] at h
    cases h
  assign id sub accessor _ h := by
    rw [plain id] at h
    cases h

namespace Eval

theorem Imitates.matches {α : Type} {tree : Tree} {home : TreeId} {usual : Constants → Prop}
    {same : α → α → Prop} (equivalence : Equivalence same) {act act' act'' : Eval α}
    (h : act.Imitates Surface.seen (Constants.Sound tree home usual) usual same act')
    (preserves : act.Preserves (Constants.Correct tree home))
    (plain : act'.Matches Surface.seen (Constants.Correct tree home) same act'') :
    act.Matches Surface.seen (Constants.Sound tree home usual) same act'' := by
  intro world world' hworld hseen
  obtain ⟨answer, answer', after, after', hact, hact', halike, htold, husual⟩ := h world hworld
  have hblank : ({} : Constants).Correct tree home := .of_blank fun _ => rfl
  obtain ⟨middle, answer'', last, after'', hmiddle, hact'', halike', htold', _⟩ :=
    plain { world with constants := {} } world' hblank hseen
  rw [hact'] at hmiddle
  cases hmiddle
  have hcorrect := preserves world hworld.2
  rw [hact] at hcorrect
  exact ⟨answer, answer'', after, after'', hact, hact'', halike.trans equivalence halike',
    htold.trans htold', husual, hcorrect⟩

end Eval

namespace Tree
variable {tree sub : Tree} {home : TreeId} {env : Env} {id : NodeId} {property : Constants → Prop}

theorem handle_matches_of_plain (plain : env.Plain home) (hsub : tree.Sub id sub)
    (reference : sub.isReference = true)
    (respects : ∀ registry ∈ env.gateway, registry.Respects) :
    (sub.handle env home id).Matches Surface.seen (Constants.Correct tree home)
      (sub.uncached { gateway := env.gateway } home id) := by
  refine handle_matches (.self tree home) hsub reference respects ?_
  intro id sub _ accessor haccessor
  rw [plain id] at haccessor
  cases haccessor

theorem accessor_matches {usual : Constants → Prop} (reference : tree.isReference = true)
    (respects : ∀ registry ∈ env.gateway, registry.Respects)
    (faithful : env.Faithful tree home Surface.seen usual)
    (preserves : ∀ accessor : Accessor, accessor.Preserves env (Constants.Correct tree home))
    (hsub : tree.Sub id sub) {accessor : Accessor} (h : accessor ∈ env.accessor home id) :
    accessor.Matches env (Constants.Sound tree home usual)
      (sub.uncached { gateway := env.gateway } home id) := by
  have hplain : (sub.handle { gateway := env.gateway } home id).Matches Surface.seen
      (Constants.Correct tree home) (sub.uncached { gateway := env.gateway } home id) :=
    handle_matches_of_plain (Env.plain_none env.gateway home) hsub (hsub.isReference reference)
      respects
  constructor
  · intro source source' hsource
    exact (faithful.read id sub accessor hsub h source).matches Value.same_equivalence
      ((preserves accessor).read source) (hplain.get source source' hsource)
  · intro target target' value value' htarget hvalue
    exact (faithful.assign id sub accessor hsub h target value).matches eq_equivalence
      ((preserves accessor).assign target value)
      (hplain.set target target' value value' htarget hvalue)

theorem entrance_matches {handle : Handle}
    (accessors : ∀ accessor ∈ env.accessor home 0, accessor.Matches env property handle)
    (h : (tree.handle env home 0).Matches Surface.seen property handle) :
    (tree.entrance env home).Matches Surface.seen property handle := by
  unfold entrance
  cases haccessor : env.accessor home 0 with
  | none => exact h
  | some accessor =>
    exact ⟨(accessors accessor haccessor).read, (accessors accessor haccessor).assign⟩

theorem handleAt_of_sub (hsub : tree.Sub id sub) (h : id < tree.size) :
    tree.handleAt env home id = sub.handle env home id := by
  obtain ⟨place, hlookUp⟩ := exists_lookUp h
  rw [handleAt, hlookUp, hsub.unique (.of_lookUp hlookUp)]

theorem exists_sub (h : id < tree.size) : ∃ sub, tree.Sub id sub := by
  obtain ⟨place, hlookUp⟩ := exists_lookUp h
  exact ⟨place.subtree, .of_lookUp hlookUp⟩

end Tree

/-! ### Calls -/

namespace Workspace

def callEnv (workspace : Workspace) (gateway : Option Registry) : Env where
  accessor := workspace.accessor?
  gateway
  enter := workspace.enter gateway (delegationDepth - 1)

section Handle
variable {workspace : Workspace} {tree : Tree} {home : TreeId}
  (htree : workspace.trees[home]? = some tree) (context : Context)
include htree

theorem handle_tree : workspace.handle context ⟨home, none⟩ =
    tree.entrance (workspace.callEnv (workspace.gateway context)) home := by
  show workspace.enter (workspace.gateway context) (delegationDepth - 1 + 1) ⟨home, none⟩ = _
  rw [enter]
  simp only [htree]
  rfl

theorem handle_node (id : NodeId) : workspace.handle context ⟨home, some id⟩ =
    tree.handleAt (workspace.callEnv (workspace.gateway context)) home id := by
  show workspace.enter (workspace.gateway context) (delegationDepth - 1 + 1) ⟨home, some id⟩ = _
  rw [enter]
  simp only [htree]
  rfl

theorem handle_matches_of_sub {node : Option NodeId} (known : ∀ id ∈ node, id < tree.size)
    {sub : Tree} (hsub : tree.Sub (node.getD 0) sub) {property : Constants → Prop} {handle : Handle}
    (accessors : ∀ accessor ∈ workspace.accessor? home (node.getD 0),
      accessor.Matches (workspace.callEnv (workspace.gateway context)) property handle)
    (h : (sub.handle (workspace.callEnv (workspace.gateway context)) home (node.getD 0)).Matches
      Surface.seen property handle) :
    (workspace.handle context ⟨home, node⟩).Matches Surface.seen property handle := by
  cases node with
  | none =>
    cases hsub.unique .root
    rw [handle_tree htree context]
    exact Tree.entrance_matches accessors h
  | some id =>
    have hat : tree.handleAt (workspace.callEnv (workspace.gateway context)) home id =
        sub.handle (workspace.callEnv (workspace.gateway context)) home id :=
      Tree.handleAt_of_sub hsub (known id rfl)
    rw [handle_node htree context, hat]
    exact h

end Handle

/-- A call on a tree, or on a node of it, in two workspaces: with faithful accessors in the one and
without accessors in the other, in contexts of one root and one registry. -/
structure Parallel (tree : Tree) (home : TreeId) (usual : Constants → Prop)
    (left right : Workspace) (context context' : Context) (node : Option NodeId) : Prop where
  known : ∀ id ∈ node, id < tree.size
  root : context.settings.root.erase = context'.settings.root.erase
  gateway : left.gateway context = right.gateway context'
  respects : ∀ registry ∈ left.gateway context, registry.Respects
  faithful : (left.callEnv (left.gateway context)).Faithful tree home Surface.seen usual
  plain : ∀ id, right.accessor? home id = none

/-- Two workspaces after the same calls on a tree. Between calls both graphs may change alike, and
accessors, contexts, registries and other trees in any way. -/
inductive Paired (tree : Tree) (home : TreeId) (usual : Constants → Prop) :
    Workspace → Workspace → Prop where
  | start {left right : Workspace} (htree : left.trees[home]? = some tree)
      (htree' : right.trees[home]? = some tree) (heap : left.heap.erase = right.heap.erase)
      (blank : ∀ id, left.constants.cell home id = {})
      (blank' : ∀ id, right.constants.cell home id = {}) (husual : usual left.constants) :
      Paired tree home usual left right
  | get {left right : Workspace} (before : Paired tree home usual left right)
      {context context' : Context} {node : Option NodeId}
      (parallel : Parallel tree home usual left right context context' node)
      {source source' : Value} (hsource : source.erase = source'.erase) :
      Paired tree home usual
        (left.perform context ((left.handle context ⟨home, node⟩).get source)).2.2
        (right.perform context' ((right.handle context' ⟨home, node⟩).get source')).2.2
  | set {left right : Workspace} (before : Paired tree home usual left right)
      {context context' : Context} {node : Option NodeId}
      (parallel : Parallel tree home usual left right context context' node)
      {target target' value value' : Value} (htarget : target.erase = target'.erase)
      (hvalue : value.erase = value'.erase) :
      Paired tree home usual
        (left.perform context ((left.handle context ⟨home, node⟩).set target value)).2.2
        (right.perform context' ((right.handle context' ⟨home, node⟩).set target' value')).2.2
  | change {left right after after' : Workspace} (before : Paired tree home usual left right)
      (htree : after.trees[home]? = some tree) (htree' : after'.trees[home]? = some tree)
      (heap : after.heap.erase = after'.heap.erase)
      (cells : ∀ id, after.constants.cell home id = left.constants.cell home id)
      (cells' : ∀ id, after'.constants.cell home id = right.constants.cell home id)
      (husual : usual after.constants) : Paired tree home usual after after'

def SameEffect {α : Type} (same : α → α → Prop)
    (result result' : Except Misuse (Except EvalError α) × Context × Workspace) : Prop :=
  ∃ answer answer', result.1 = .ok answer ∧ result'.1 = .ok answer' ∧ Alike same answer answer' ∧
    result.2.2.heap.erase = result'.2.2.heap.erase ∧
      result.2.1.settings.root.erase = result'.2.1.settings.root.erase

structure Level (tree : Tree) (home : TreeId) (usual : Constants → Prop)
    (left right : Workspace) : Prop where
  htree : left.trees[home]? = some tree
  htree' : right.trees[home]? = some tree
  heap : left.heap.erase = right.heap.erase
  constants : left.constants.Sound tree home usual
  constants' : right.constants.Correct tree home

namespace Level
variable {tree : Tree} {home : TreeId} {usual : Constants → Prop} {left right : Workspace}
  (level : Level tree home usual left right)
include level

theorem perform {α : Type} {same : α → α → Prop} (equivalence : Equivalence same)
    {context context' : Context} (root : context.settings.root.erase = context'.settings.root.erase)
    {act act' common : Eval α}
    (h : act.Matches Surface.seen (Constants.Sound tree home usual) same common)
    (h' : act'.Matches Surface.seen (Constants.Correct tree home) same common) :
    SameEffect same (left.perform context act) (right.perform context' act') ∧
      Level tree home usual (left.perform context act).2.2 (right.perform context' act').2.2 := by
  have hseen : (left.world context).surface.seen = (right.world context').surface.seen :=
    Prod.ext level.heap root
  obtain ⟨answer, answer', after, after', hact, hact', halike, hafter, hkept, hkept'⟩ :=
    h.compare equivalence h' level.constants level.constants' hseen
  simp only [Workspace.perform, hact, hact']
  constructor
  · exact ⟨answer, answer', rfl, rfl, halike, congrArg Prod.fst hafter, congrArg Prod.snd hafter⟩
  · exact ⟨level.htree, level.htree', congrArg Prod.fst hafter, hkept, hkept'⟩

variable (regardless : Constants.Regardless home usual) (reference : tree.isReference = true)
include regardless reference

theorem handles {context context' : Context} {node : Option NodeId}
    (parallel : Parallel tree home usual left right context context' node) :
    ∃ common,
      (left.handle context ⟨home, node⟩).Matches Surface.seen (Constants.Sound tree home usual)
          common ∧
        (right.handle context' ⟨home, node⟩).Matches Surface.seen (Constants.Correct tree home)
          common := by
  have hknown : node.getD 0 < tree.size := by
    cases node with
    | none => exact tree.size_pos
    | some id => exact parallel.known id rfl
  obtain ⟨sub, hsub⟩ := Tree.exists_sub hknown
  have hpreserves : ∀ accessor : Accessor, accessor.Preserves
      (left.callEnv (left.gateway context)) (Constants.Correct tree home) := fun accessor =>
    ⟨fun source => .run (enter_preserves level.htree reference _ _) _ _,
      fun target value => .run (enter_preserves level.htree reference _ _) _ _⟩
  have haccessors : ∀ id sub, tree.Sub id sub → ∀ accessor ∈ left.accessor? home id,
      accessor.Matches (left.callEnv (left.gateway context)) (Constants.Sound tree home usual)
        (sub.uncached { gateway := left.gateway context } home id) :=
    fun id sub hsub accessor h =>
      Tree.accessor_matches reference parallel.respects parallel.faithful hpreserves hsub h
  -- Either side is compared with the node as it is without accessors and constants.
  refine ⟨sub.uncached { gateway := left.gateway context } home (node.getD 0), ?_, ?_⟩
  · apply handle_matches_of_sub level.htree context parallel.known hsub
    · exact haccessors _ sub hsub
    · exact Tree.handle_matches (regardless.fit tree) hsub (hsub.isReference reference)
        parallel.respects haccessors
  · rw [parallel.gateway]
    apply handle_matches_of_sub level.htree' context' parallel.known hsub
    · intro accessor haccessor
      rw [parallel.plain] at haccessor
      cases haccessor
    · exact Tree.handle_matches_of_plain parallel.plain hsub (hsub.isReference reference)
        (parallel.gateway ▸ parallel.respects)

end Level

variable {tree : Tree} {home : TreeId} {usual : Constants → Prop} {left right : Workspace}

theorem Paired.level (paired : Paired tree home usual left right)
    (regardless : Constants.Regardless home usual) (reference : tree.isReference = true) :
    Level tree home usual left right := by
  induction paired with
  | start htree htree' heap blank blank' husual =>
    exact ⟨htree, htree', heap, ⟨husual, .of_blank fun id => by rw [blank id]⟩,
      .of_blank fun id => by rw [blank' id]⟩
  | get _ parallel hsource ih =>
    obtain ⟨common, hleft, hright⟩ := ih.handles regardless reference parallel
    exact (ih.perform Value.same_equivalence parallel.root (hleft.get _ _ hsource)
      (hright.get _ _ rfl)).2
  | set _ parallel htarget hvalue ih =>
    obtain ⟨common, hleft, hright⟩ := ih.handles regardless reference parallel
    exact (ih.perform eq_equivalence parallel.root (hleft.set _ _ _ _ htarget hvalue)
      (hright.set _ _ _ _ rfl rfl)).2
  | change _ htree htree' heap cells cells' husual ih =>
    exact ⟨htree, htree', heap,
      ⟨husual, ih.constants.2.of_value_eq fun id => by rw [cells id]⟩,
      ih.constants'.of_value_eq fun id => by rw [cells' id]⟩

/-- After the same calls, whatever faithful accessors the tree had on the one side, the next get or
set has the same outcome on both sides, and leaves the same graph and the same root. -/
theorem accessors_invisible (regardless : Constants.Regardless home usual)
    (reference : tree.isReference = true) (paired : Paired tree home usual left right)
    {context context' : Context} {node : Option NodeId}
    (parallel : Parallel tree home usual left right context context' node) :
    (∀ source source', source.erase = source'.erase → SameEffect Value.Same
      (left.perform context ((left.handle context ⟨home, node⟩).get source))
      (right.perform context' ((right.handle context' ⟨home, node⟩).get source'))) ∧
    ∀ target target' value value', target.erase = target'.erase → value.erase = value'.erase →
      SameEffect Eq
        (left.perform context ((left.handle context ⟨home, node⟩).set target value))
        (right.perform context' ((right.handle context' ⟨home, node⟩).set target' value')) := by
  have level := paired.level regardless reference
  obtain ⟨common, hleft, hright⟩ := level.handles regardless reference parallel
  constructor
  · intro source source' hsource
    exact (level.perform Value.same_equivalence parallel.root (hleft.get _ _ hsource)
      (hright.get _ _ rfl)).1
  · intro target target' value value' htarget hvalue
    exact (level.perform eq_equivalence parallel.root (hleft.set _ _ _ _ htarget hvalue)
      (hright.set _ _ _ _ rfl rfl)).1

end Workspace

/-! ### A node that makes an empty list -/

namespace Tree

def emptyList : Tree :=
  .node .chain [some (.node .list [])]

def listBesideRoot : Tree :=
  .node .list [some emptyList, some (.node (.staticMethod "Host" "echo") [some (.node .chain [])])]

theorem sub_emptyList : listBesideRoot.Sub 1 emptyList := by
  have hchild : (1, emptyList) ∈ child? (0 + 1) listBesideRoot.slots 0 := rfl
  exact .child .root hchild

section EmptyList
variable {tree : Tree} {env : Env} {home : TreeId} {id : NodeId} (plain : env.Plain home)
include plain

theorem yields_emptyList_get (hsub : tree.Sub id emptyList) (source : Value) :
    ((emptyList.handle env home id).get source).Yields (Constants.Correct tree home) Value.Same
      (.ok (.list 0 [])) := by
  have hchild : (id + 1, node .list []) ∈ child? (id + 1) [some (node .list [])] 0 := rfl
  have hlink : (((node .list []).handle env home (id + 1)).get source).Yields
      (Constants.Correct tree home) Value.Same (.ok (.list 0 [])) :=
    yields_get (.self tree home) (hsub.child hchild) rfl rfl source
  rw [emptyList, handle_get (Engine.substitute?_eq_none plain id .chain)]
  apply Eval.Yields.traced
  apply Eval.Yields.visiting
  intro world hworld
  obtain ⟨begun, hbegun, hcorrect, hact⟩ :=
    cached_ask_eq_act (.self tree home) hsub rfl rfl hworld
  obtain ⟨answer, after, hget, halike, hsurface, hkept⟩ := hlink begun hcorrect
  refine ⟨answer, after, ?_, halike, hsurface.trans (by rw [hbegun]), hkept⟩
  refine hact.trans ?_
  show Eval.andThen (((node .list []).handle env home (id + 1)).get source)
    (fun outcome => ((Script.done outcome).andThen (Script.onOk Script.succeed)).run _ _) begun = _
  rw [Eval.andThen, hget]
  cases answer <;> rfl

theorem yields_emptyList_set (target value : Value) :
    ((emptyList.handle env home id).set target value).Yields (Constants.Correct tree home) Eq
      (.error (.inappropriate .list "[]")) := by
  have hlink : (((node .list []).handle env home (id + 1)).set target value).Yields
      (Constants.Correct tree home) Eq (.error (.inappropriate .list "[]")) := by
    rw [handle_set (Engine.substitute?_eq_none plain (id + 1) .list)]
    apply Eval.Yields.traced
    apply Eval.Yields.visiting
    exact fun world hworld => ⟨_, world, rfl, .error _, rfl, hworld⟩
  rw [emptyList, handle_set (Engine.substitute?_eq_none plain id .chain)]
  apply Eval.Yields.traced
  apply Eval.Yields.visiting
  intro world hworld
  obtain ⟨answer, after, hset, hrest⟩ := hlink world hworld
  refine ⟨answer, after, ?_, hrest⟩
  show Eval.andThen (((node .list []).handle env home (id + 1)).set target value)
    (fun outcome => (Script.done outcome).run _ _) world = _
  rw [Eval.andThen, hset]
  rfl

end EmptyList
end Tree

def Surface.rooted (root : Option Value) (surface : Surface) : Surface :=
  { surface with settings := { surface.settings with root := root.getD surface.settings.root } }

/-- Makes an empty list like `Tree.emptyList`, and sets the root before if one is given. -/
def Accessor.emptyList (root : Option Value) : Accessor where
  read _ := do
    Script.change (·.rooted root)
    Script.newList []
  assign _ _ := Script.fail (.inappropriate .list "[]")

theorem Env.faithful_emptyList {σ : Type} (told : Surface → σ) {root : Option Value} {env : Env}
    (haccessor : ∀ id accessor, env.accessor 0 id = some accessor →
      id = 1 ∧ accessor = .emptyList root)
    (htold : ∀ surface : Surface, told (surface.rooted root).erase = told surface.erase) :
    env.Faithful .listBesideRoot 0 (fun surface => told surface.erase) fun _ => True := by
  have hplain := Env.plain_none env.gateway 0
  have hblank : ({} : Constants).Correct .listBesideRoot 0 := .of_blank fun _ => rfl
  constructor
  · intro id sub accessor hsub h source world _
    obtain ⟨rfl, rfl⟩ := haccessor id accessor h
    cases hsub.unique Tree.sub_emptyList
    obtain ⟨answer, after, hget, halike, hsurface, _⟩ := Tree.yields_emptyList_get hplain
      Tree.sub_emptyList source { world with constants := {} } hblank
    have hsame : Alike Value.Same (.ok (.list world.heap.lists [])) (.ok (.list 0 [])) := .ok rfl
    exact ⟨_, answer, _, after, rfl, hget,
      hsame.trans Value.same_equivalence (halike.symm Value.same_equivalence),
      (htold world.surface).trans (congrArg told hsurface.symm), trivial⟩
  · intro id sub accessor hsub h target value world _
    obtain ⟨rfl, rfl⟩ := haccessor id accessor h
    cases hsub.unique Tree.sub_emptyList
    obtain ⟨answer, after, hset, halike, hsurface, _⟩ := Tree.yields_emptyList_set hplain target
      value { world with constants := {} } hblank
    exact ⟨_, answer, world, after, rfl, hset, halike.symm eq_equivalence,
      congrArg told hsurface.symm, trivial⟩

def Workspace.host (accessors : List ((TreeId × NodeId) × Accessor)) : Workspace where
  trees := #[.listBesideRoot]
  accessors
  registries := #[{ statics := [("Host.echo", Behaviour.firstArgument.method "first")] }]

def Context.hosted : Context := { gateway := some 0 }

namespace Workspace

theorem accessor_of_eq {workspace : Workspace} {accessor held : Accessor} {id : NodeId}
    (heq : workspace.accessors = [((0, 1), accessor)])
    (h : workspace.accessor? 0 id = some held) : id = 1 ∧ held = accessor := by
  have hmem := mem_of_accessor? h
  rw [heq] at hmem
  cases List.mem_singleton.1 hmem
  exact ⟨rfl, rfl⟩

/-- Attached after a call has kept its constants, a faithful accessor is not told from its node. -/
theorem invisible_after_get :
    let called := ((host []).perform .hosted (((host []).handle .hosted ⟨0, none⟩).get .null)).2.2
    let attached := called.attach 0 1 (.emptyList none)
    (called.constants.cell 0 2).value.isSome = true ∧ (attached.accessor? 0 1).isSome = true ∧
      SameEffect Value.Same
        (attached.perform .hosted ((attached.handle .hosted ⟨0, none⟩).get .null))
        (called.perform .hosted ((called.handle .hosted ⟨0, none⟩).get .null)) := by
  intro called attached
  have respects : ∀ registry ∈ (host []).gateway .hosted, registry.Respects := by
    intro registry hregistry entry hentry
    cases hregistry
    cases List.mem_singleton.1 hentry
    exact Behaviour.respects_method .firstArgument "first"
  have known : ∀ id ∈ (none : Option NodeId), id < Tree.listBesideRoot.size := by
    intro id hid
    cases hid
  have plain : ∀ id, (host []).accessor? 0 id = none := fun _ => rfl
  have hplain : ((host []).callEnv ((host []).gateway .hosted)).Faithful .listBesideRoot 0
      Surface.seen fun _ => True := .of_plain plain
  have hfaithful : (attached.callEnv (attached.gateway .hosted)).Faithful .listBesideRoot 0
      Surface.seen fun _ => True :=
    @Env.faithful_emptyList _ (fun surface => (surface.heap, surface.settings.root)) none _
      (fun _ _ => accessor_of_eq rfl) fun _ => rfl
  have fresh : Paired .listBesideRoot 0 (fun _ => True) (host []) (host []) :=
    .start rfl rfl rfl (fun _ => rfl) (fun _ => rfl) trivial
  have before : Parallel .listBesideRoot 0 (fun _ => True) (host []) (host []) .hosted .hosted
      none :=
    ⟨known, rfl, rfl, respects, hplain, plain⟩
  have after : Paired .listBesideRoot 0 (fun _ => True) called called := .get fresh before rfl
  have paired : Paired .listBesideRoot 0 (fun _ => True) attached called :=
    .change after rfl rfl rfl (fun _ => rfl) (fun _ => rfl) trivial
  have next : Parallel .listBesideRoot 0 (fun _ => True) attached called .hosted .hosted none :=
    ⟨known, rfl, rfl, respects, hfaithful, plain⟩
  refine ⟨by decide +kernel, rfl, ?_⟩
  exact (accessors_invisible (fun _ _ _ _ => trivial) rfl paired next).1 .null .null rfl

/-- An accessor that sets the root has the outcomes of its node and the same effect on the graph,
and yet a method gets another argument after it. -/
theorem visible_root :
    let rooting := host [((0, 1), .emptyList (some (.int 7)))]
    (rooting.callEnv (rooting.gateway .hosted)).Faithful .listBesideRoot 0
      (fun surface => surface.heap.erase) (fun _ => True) ∧
    ¬ SameEffect Value.Same
      (rooting.perform .hosted ((rooting.handle .hosted ⟨0, none⟩).get .null))
      ((host []).perform .hosted (((host []).handle .hosted ⟨0, none⟩).get .null)) := by
  constructor
  · exact Env.faithful_emptyList Surface.heap (fun _ _ => accessor_of_eq rfl) fun _ => rfl
  · intro h
    obtain ⟨answer, answer', hleft, hright, halike, _⟩ := h
    have hseven : Except.ok (.ok (.list 1 [.list 0 [], .int 7])) = Except.ok answer := hleft
    have hnull : Except.ok (.ok (.list 1 [.list 0 [], .null])) = Except.ok answer' := hright
    cases hseven
    cases hnull
    cases halike with
    | ok h => simp [Value.Same] at h

end Workspace
end ObjectNavigation
