import ObjectNavigation.Proofs.Engine.Uncached
import ObjectNavigation.Workspace

/-!
Properties of all that is done with a tree. If a property goes from the parts of a computation to
the whole, whatever is known of constants, then the gets, sets and questions of the nodes of a tree
have it, as soon as bodies and accessors carry it on from what they reach (`Eval.Closed.handle`,
`Eval.Closed.enter`).
-/

namespace ObjectNavigation

/-- The property is closed under the ways in which the computations of a tree are put together. The
constants of the tree are of no account to it. -/
structure Eval.Closed (home : TreeId) (P : (α : Type) → Eval α → Prop) : Prop where
  finish : ∀ {α : Type} (outcome : Except EvalError α), P α (.finish outcome)
  misuse : ∀ {α : Type} (misuse : Misuse), P α (.misuse misuse)
  andThen : ∀ {α β : Type} {act : Eval α} {next : Except EvalError α → Eval β},
    P α act → (∀ outcome, P β (next outcome)) → P β (act.andThen next)
  /-- By way of the constants, the computation does what one with the property does. -/
  choose : ∀ {α : Type} {act : Eval α},
    (∀ constants, ∃ chosen, P α chosen ∧
      ∀ world : World, world.constants = constants → act world = chosen world) → P α act
  check : ∀ {α : Type} {act : Eval α}, P α act → ∀ id,
    P α fun world => act { world with constants := world.constants.check home id }
  keep : ∀ {α : Type} {act : Eval α}, P α act → ∀ id value,
    P α fun world => act { world with constants := world.constants.keep home id value }
  traced : ∀ {α : Type} {act : Eval α}, P α act → ∀ node kind object setter result,
    P α (Engine.traced node kind object setter result act)
  visiting : ∀ {α : Type} {act : Eval α}, P α act → ∀ node object,
    P α (Engine.visiting node object act)

structure Handle.Has (P : (α : Type) → Eval α → Prop) (handle : Handle) : Prop where
  get : ∀ source, P Value (handle.get source)
  set : ∀ target value, P Unit (handle.set target value)
  ask : ∀ question, P Bool (handle.ask question)

structure Accessor.Has (P : (α : Type) → Eval α → Prop) (accessor : Accessor) (env : Env) :
    Prop where
  read : ∀ source, P Value ((accessor.read source).run env.enter env.gateway)
  assign : ∀ target value, P Unit ((accessor.assign target value).run env.enter env.gateway)

/-- What the body does has the property if all that it reaches has. -/
structure Body.Carries (P : (α : Type) → Eval α → Prop) (gateway : Option Registry) (body : Body)
    (seat : Seat) : Prop where
  read : ∀ {reach : Nat → Handle}, (∀ index, (reach index).Has P) → ∀ source,
    P Value ((body.read seat source).run reach gateway)
  assign : ∀ {reach : Nat → Handle}, (∀ index, (reach index).Has P) → ∀ target value,
    P Unit ((body.assign seat target value).run reach gateway)
  ask : ∀ {reach : Nat → Handle}, (∀ index, (reach index).Has P) → ∀ question,
    P Bool ((body.ask seat question).run reach gateway)

def Tree.Carries (P : (α : Type) → Eval α → Prop) (gateway : Option Registry) (tree : Tree) :
    Prop :=
  ∀ id sub, tree.Sub id sub → sub.body.Carries P gateway sub.seat

theorem Tree.Carries.sub {P : (α : Type) → Eval α → Prop} {gateway : Option Registry}
    {tree sub : Tree} (h : tree.Carries P gateway) {id : NodeId} (hsub : tree.Sub id sub) :
    sub.Carries P gateway := by
  intro inner other hother
  obtain ⟨below, hbelow⟩ := hsub.exists_of_sub hother
  exact h below other hbelow

namespace Eval.Closed
variable {home : TreeId} {P : (α : Type) → Eval α → Prop} (closed : Eval.Closed home P)
include closed

/-! ### Layers -/

theorem kept (id : NodeId) {act : Eval Value} (h : P Value act) :
    P Value (Engine.kept home id act) := by
  refine closed.choose fun constants => ?_
  cases hvalue : (constants.cell home id).value with
  | some value =>
    refine ⟨.finish (.ok value), closed.finish _, fun world hworld => ?_⟩
    rw [Engine.kept, hworld, hvalue]
    rfl
  | none =>
    refine ⟨act, h, fun world hworld => ?_⟩
    rw [Engine.kept, hworld, hvalue]

theorem keeping (id : NodeId) {act : Eval Value} (h : P Value act) :
    P Value (Engine.keeping home id act) := by
  refine closed.andThen h fun outcome => ?_
  cases outcome with
  | error error => exact closed.finish _
  | ok value =>
    have hread : P Value fun after : World =>
        (.ok (.ok ((after.constants.cell home id).value.getD value)), after) :=
      closed.choose fun constants => ⟨.finish (.ok ((constants.cell home id).value.getD value)),
        closed.finish _, fun world hworld => by rw [hworld]; rfl⟩
    exact closed.keep hread id value

theorem cached (id : NodeId) {constant : Eval Bool} (hconstant : P Bool constant)
    {act : Eval Value} (h : P Value act) : P Value (Engine.cached home id constant act) := by
  refine closed.choose fun constants => ?_
  cases hchecked : (constants.cell home id).checked with
  | true =>
    refine ⟨Engine.kept home id act, closed.kept id h, fun world hworld => ?_⟩
    rw [Engine.cached, hworld, hchecked, if_pos rfl]
  | false =>
    obtain ⟨next, hnext, hfirst⟩ : ∃ next, (∀ outcome, P Value (next outcome)) ∧
        ∀ world : World, (world.constants.cell home id).checked = false →
          Engine.cached home id constant act world = constant.andThen next
            { world with constants := world.constants.check home id } := by
      refine ⟨_, fun outcome => ?_, fun world hworld => if_neg (Bool.eq_false_iff.1 hworld)⟩
      rcases outcome with error | answer
      · exact closed.finish _
      · cases answer with
        | true => exact closed.keeping id h
        | false => exact closed.kept id h
    refine ⟨_, closed.check (closed.andThen hconstant hnext) id, fun world hworld => ?_⟩
    exact hfirst world (by rw [hworld, hchecked])

/-! ### Handles -/

theorem absent (error : EvalError) : (Handle.absent error).Has P where
  get _ := closed.finish _
  set _ _ := closed.finish _
  ask _ := closed.finish _

theorem stray (misuse : Misuse) : (Handle.stray misuse).Has P where
  get _ := closed.misuse misuse
  set _ _ := closed.misuse misuse
  ask _ := closed.misuse misuse

theorem reach {child : Nat → Option Handle} (hchild : ∀ index, ∀ handle ∈ child index, handle.Has P)
    (kind : Kind) (index : Nat) : (Engine.reach kind child index).Has P := by
  unfold Engine.reach
  cases h : child index with
  | none => exact closed.absent _
  | some handle => exact hchild index handle h

theorem node {env : Env} {id : NodeId}
    (accessors : ∀ accessor ∈ env.accessor home id, accessor.Has P env) {body : Body} {seat : Seat}
    (carries : body.Carries P env.gateway seat) {child : Nat → Option Handle}
    (hchild : ∀ index, ∀ handle ∈ child index, handle.Has P) :
    (Engine.node env home id body seat child).Has P := by
  have hreach : ∀ index, (Engine.reach body.kind child index).Has P :=
    closed.reach hchild body.kind
  constructor
  · intro source
    apply closed.traced
    apply closed.visiting
    apply closed.cached id (carries.ask hreach .constant)
    cases h : Engine.substitute? env home id body with
    | none => exact carries.read hreach source
    | some accessor => exact (accessors accessor (Engine.substitute?_mem h)).read source
  · intro target value
    apply closed.traced
    apply closed.visiting
    cases h : Engine.substitute? env home id body with
    | none => exact carries.assign hreach target value
    | some accessor => exact (accessors accessor (Engine.substitute?_mem h)).assign target value
  · exact carries.ask hreach

section Tree
variable {env : Env} {tree : Tree}
  (accessors : ∀ id, ∀ accessor ∈ env.accessor home id, accessor.Has P env)
  (carries : tree.Carries P env.gateway)
include accessors carries

theorem handle (id : NodeId) : (tree.handle env home id).Has P := by
  induction id, tree using Tree.child_induction with
  | node id body slots ih =>
    refine closed.node (accessors id) (carries 0 _ .root) fun index handle hhandle => ?_
    rw [Tree.child_eq] at hhandle
    obtain ⟨entry, hentry, rfl⟩ := Option.map_eq_some_iff.1 hhandle
    obtain ⟨renamed, hrenamed, heq⟩ := Tree.exists_mem_child? hentry 1
    exact ih index entry hentry (heq ▸ carries.sub (.child .root hrenamed))

theorem entrance : (tree.entrance env home).Has P := by
  have hroot := closed.handle accessors carries 0
  unfold Tree.entrance
  cases h : env.accessor home 0 with
  | none => exact hroot
  | some accessor =>
    have haccessor := accessors 0 accessor h
    exact ⟨haccessor.read, haccessor.assign, hroot.ask⟩

theorem handleAt (id : NodeId) : (tree.handleAt env home id).Has P := by
  unfold Tree.handleAt
  cases hplace : tree.lookUp id with
  | error misuse => exact closed.stray misuse
  | ok place => exact closed.handle accessors (carries.sub (.of_lookUp hplace)) id

end Tree

omit closed

/-- Whatever accessors lead to has a property that is closed for every tree. -/
theorem enter (closed : ∀ home, Eval.Closed home P) {workspace : Workspace}
    {gateway : Option Registry}
    (carries : ∀ tree ∈ workspace.trees, tree.Carries P gateway)
    (accessors : ∀ attached ∈ workspace.accessors, ∀ env : Env,
      (∀ entry, (env.enter entry).Has P) → attached.2.Has P env)
    (depth : Nat) (entry : Entry) : (workspace.enter gateway depth entry).Has P := by
  induction depth generalizing entry with
  | zero => exact (closed entry.tree).stray _
  | succ depth ih =>
    unfold Workspace.enter
    split
    next => exact (closed entry.tree).stray _
    next tree htree =>
      have hcarries := carries tree (Array.mem_of_getElem? htree)
      have haccessors : ∀ id, ∀ accessor ∈ workspace.accessor? entry.tree id, accessor.Has P
          { accessor := workspace.accessor?, gateway, enter := workspace.enter gateway depth } :=
        fun id accessor haccessor => accessors _ (Workspace.mem_of_accessor? haccessor) _ ih
      split
      next => exact (closed entry.tree).entrance haccessors hcarries
      next node _ => exact (closed entry.tree).handleAt haccessors hcarries node

end Eval.Closed
end ObjectNavigation
