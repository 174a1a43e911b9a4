import ObjectNavigation.Proofs.Engine.Kept
import ObjectNavigation.Proofs.Script.Sees

/-!
Computations side by side. Two computations match if from states whose surfaces tell the same they
have outcomes that are alike, and lead to states whose surfaces tell the same. What is recorded of a
call, and what it is noted to be about, no surface tells. If bodies see no more than is told, a tree
matches its evaluation without accessors and without constants (`Surface.Telling.handle`).
-/

namespace ObjectNavigation

/-- From states of which the same is told: outcomes that are alike, and such states again. The
property of the constants is one the first computation relies on and keeps. -/
def Eval.Matches {α σ : Type} (tell : Surface → σ) (property : Constants → Prop)
    (same : α → α → Prop) (act act' : Eval α) : Prop :=
  ∀ world world', property world.constants → tell world.surface = tell world'.surface →
    ∃ answer answer' after after',
      act world = (.ok answer, after) ∧ act' world' = (.ok answer', after') ∧
        Alike same answer answer' ∧ tell after.surface = tell after'.surface ∧
          property after.constants

structure Handle.Matches {σ : Type} (tell : Surface → σ) (property : Constants → Prop)
    (handle handle' : Handle) : Prop where
  get : ∀ source source', source.erase = source'.erase →
    (handle.get source).Matches tell property Value.Same (handle'.get source')
  set : ∀ target target' value value', target.erase = target'.erase → value.erase = value'.erase →
    (handle.set target value).Matches tell property Eq (handle'.set target' value')

namespace Eval.Matches
variable {α β σ : Type} {tell : Surface → σ} {property : Constants → Prop} {same : α → α → Prop}
  {same' : β → β → Prop} {act act' : Eval α}

theorem finish {outcome outcome' : Except EvalError α} (h : Alike same outcome outcome') :
    (Eval.finish outcome).Matches tell property same (Eval.finish outcome') :=
  fun world world' hworld htold => ⟨outcome, outcome', world, world', rfl, rfl, h, htold, hworld⟩

theorem andThen (first : act.Matches tell property same act')
    {next next' : Except EvalError α → Eval β}
    (hnext : ∀ outcome outcome', Alike same outcome outcome' →
      (next outcome).Matches tell property same' (next' outcome')) :
    (act.andThen next).Matches tell property same' (act'.andThen next') := by
  intro world world' hworld htold
  obtain ⟨answer, answer', middle, middle', hact, hact', halike, hmiddle, hkept⟩ :=
    first world world' hworld htold
  rw [Eval.andThen, Eval.andThen, hact, hact']
  exact hnext answer answer' halike middle middle' hkept hmiddle

theorem imp {property' : Constants → Prop} (h : act.Matches tell property same act')
    (himp : ∀ constants, property' constants → property constants)
    (preserves : act.Preserves property') : act.Matches tell property' same act' := by
  intro world world' hworld htold
  obtain ⟨answer, answer', after, after', hact, hact', halike, hafter, _⟩ :=
    h world world' (himp _ hworld) htold
  have hkept := preserves world hworld
  rw [hact] at hkept
  exact ⟨answer, answer', after, after', hact, hact', halike, hafter, hkept⟩

/-- Two computations that match a third have outcomes that are alike. -/
theorem compare {property' : Constants → Prop} {common : Eval α} (equivalence : Equivalence same)
    (h : act.Matches tell property same common) (h' : act'.Matches tell property' same common)
    {world world' : World} (hworld : property world.constants)
    (hworld' : property' world'.constants) (htold : tell world.surface = tell world'.surface) :
    ∃ answer answer' after after',
      act world = (.ok answer, after) ∧ act' world' = (.ok answer', after') ∧
        Alike same answer answer' ∧ tell after.surface = tell after'.surface ∧
          property after.constants ∧ property' after'.constants := by
  obtain ⟨answer, middle, after, last, hact, hcommon, halike, hafter, hkept⟩ :=
    h world world' hworld htold
  obtain ⟨answer', middle', after', last', hact', hcommon', halike', hafter', hkept'⟩ :=
    h' world' world' hworld' rfl
  rw [hcommon] at hcommon'
  cases hcommon'
  exact ⟨answer, answer', after, after', hact, hact',
    halike.trans equivalence (halike'.symm equivalence), hafter.trans hafter'.symm, hkept, hkept'⟩

/-! ### Layers -/

section Layers
variable (node : NodeId)

theorem traced_left (h : act.Matches tell property same act') (kind : Kind) (source : Value)
    (setter : Bool) (result : α → Option Value) :
    (Engine.traced node kind source setter result act).Matches tell property same act' := by
  intro world world' hworld htold
  obtain ⟨begun, hbegun, hconstants, hresult, hafter, hkept⟩ :=
    Engine.traced_eq node kind source setter result act world
  obtain ⟨answer, answer', after, after', hact, hact', halike, hsame, hproperty⟩ :=
    h begun world' (hconstants ▸ hworld) (by rw [hbegun, htold])
  rw [hact] at hresult hafter hkept
  refine ⟨answer, answer', (Engine.traced node kind source setter result act world).2, after',
    Prod.ext hresult rfl, hact', halike, ?_, hkept ▸ hproperty⟩
  rw [hafter, hsame]

theorem traced_right (h : act.Matches tell property same act') (kind : Kind) (source : Value)
    (setter : Bool) (result : α → Option Value) :
    act.Matches tell property same (Engine.traced node kind source setter result act') := by
  intro world world' hworld htold
  obtain ⟨begun, hbegun, _, hresult, hafter, _⟩ :=
    Engine.traced_eq node kind source setter result act' world'
  obtain ⟨answer, answer', after, after', hact, hact', halike, hsame, hproperty⟩ :=
    h world begun hworld (by rw [hbegun, htold])
  rw [hact'] at hresult hafter
  refine ⟨answer, answer', after, (Engine.traced node kind source setter result act' world').2,
    hact, Prod.ext hresult rfl, halike, ?_, hproperty⟩
  rw [hafter, hsame]

theorem visiting_left (h : act.Matches tell property same act') (object : Value) :
    (Engine.visiting node object act).Matches tell property same act' :=
  fun world world' hworld htold => h (world.visit node object) world' hworld htold

theorem visiting_right (h : act.Matches tell property same act') (object : Value) :
    act.Matches tell property same (Engine.visiting node object act') :=
  fun world world' hworld htold => h world (world'.visit node object) hworld htold

end Layers

end Eval.Matches

/-- Computations that have the same outcome in every state match, in whatever does not depend on the
identity of lists. -/
theorem Eval.Yields.matches {σ : Type} {tell : Surface → σ}
    (htell : ∀ surface surface' : Surface,
      surface.erase = surface'.erase → tell surface = tell surface')
    {property : Constants → Prop} {outcome : Except EvalError Value} {act act' : Eval Value}
    (h : act.Yields property Value.Same outcome)
    (h' : act'.Yields (fun _ => True) Value.Same outcome) :
    act.Matches tell property Value.Same act' := by
  intro world world' hworld htold
  obtain ⟨answer, after, hact, halike, hafter, hkept⟩ := h world hworld
  obtain ⟨answer', after', hact', halike', hafter', _⟩ := h' world' trivial
  refine ⟨answer, answer', after, after', hact, hact', ?_, ?_, hkept⟩
  · exact halike.trans Value.same_equivalence (halike'.symm Value.same_equivalence)
  · rw [htell _ _ hafter, htell _ _ hafter', htold]

theorem Handle.Matches.absent {σ : Type} {tell : Surface → σ} {property : Constants → Prop}
    (error : EvalError) :
    (Handle.absent error).Matches tell property (Handle.absent error) :=
  ⟨fun _ _ _ => .finish (.error error), fun _ _ _ _ _ _ => .finish (.error error)⟩

/-! ### What bodies see -/

/-- Surfaces of which the same is told differ in identities of lists, and in what neither bodies nor
methods see. -/
structure Surface.Telling {σ : Type} (tell : Surface → σ) (sees : Surface → Surface → Prop) :
    Prop where
  between : ∀ {surface surface'}, tell surface = tell surface' →
    ∃ middle : Surface, surface.erase = middle.erase ∧ sees middle surface'
  of_erase : ∀ {surface surface'}, surface.erase = surface'.erase → tell surface = tell surface'
  of_sees : ∀ {surface surface'}, sees surface surface' → tell surface = tell surface'
  sight : Script.Sight sees
  call : ∀ {surface surface'}, sees surface surface' → ∀ (registry : Registry) call,
    (registry.call call surface.outside).1 = (registry.call call surface'.outside).1 ∧
      sees { surface with outside := (registry.call call surface.outside).2 }
        { surface' with outside := (registry.call call surface'.outside).2 }

namespace Surface.Telling
variable {α σ : Type} {tell : Surface → σ} {sees : Surface → Surface → Prop}
  (telling : Surface.Telling tell sees) {property : Constants → Prop} {same : α → α → Prop}
include telling

theorem invoke {gateway : Option Registry} (respects : ∀ registry ∈ gateway, registry.Respects)
    {call call' : Invocation} (hcall : call.erase = call'.erase) :
    (ObjectNavigation.invoke gateway call).Matches tell property Value.Same
      (ObjectNavigation.invoke gateway call') := by
  intro world world' hworld htold
  obtain ⟨middle, herase, hsees⟩ := telling.between htold
  cases gateway with
  | none =>
    have hheap : world.heap.erase = world'.heap.erase :=
      (Surface.heap_eq herase).trans (congrArg Heap.erase (telling.sight.heap hsees))
    have hmember : call.member world.heap = call'.member world'.heap := by
      rw [← call.member_erase, hcall, hheap, call'.member_erase]
    refine ⟨_, _, world, world', rfl, rfl, ?_, htold, hworld⟩
    rw [hmember]
    exact .error _
  | some registry =>
    obtain ⟨houtcome, hafter⟩ :=
      Registry.call_respects (respects registry rfl) hcall (Surface.outside_eq herase)
    obtain ⟨houtcome', hafter'⟩ := telling.call hsees registry call'
    rw [houtcome'] at houtcome
    exact ⟨_, _, _, _, rfl, rfl, alike_mapError .method houtcome,
      (telling.of_erase (Surface.withOutside_eq herase hafter)).trans (telling.of_sees hafter'),
      hworld⟩

theorem run {C : Type} {reach reach' : C → Handle}
    (hreach : ∀ child, (reach child).Matches tell property (reach' child))
    {gateway : Option Registry} (respects : ∀ registry ∈ gateway, registry.Respects)
    {script script' : Script C α} (h : Script.Similar same script script')
    (hsees : script'.Sees sees) :
    (script.run reach gateway).Matches tell property same (script'.run reach' gateway) := by
  induction h with
  | done h => exact .finish h
  | get hsource _ ih =>
    cases hsees with
    | get follow =>
      refine ((hreach _).get _ _ hsource).andThen fun outcome outcome' halike => ?_
      exact ih outcome outcome' halike (follow outcome')
  | set htarget hvalue _ ih =>
    cases hsees with
    | set follow =>
      refine ((hreach _).set _ _ _ _ htarget hvalue).andThen fun outcome outcome' halike => ?_
      rw [alike_eq_iff.1 halike]
      exact ih outcome' (follow outcome')
  | invoke hcall _ ih =>
    cases hsees with
    | invoke follow =>
      refine (telling.invoke respects hcall).andThen fun outcome outcome' halike => ?_
      exact ih outcome outcome' halike (follow outcome')
  | look _ ih =>
    cases hsees with
    | look agree follow =>
      -- The second script goes on from the middle surface as it does from its own.
      intro world world' hworld htold
      obtain ⟨middle, herase, hmiddle⟩ := telling.between htold
      have hrest := ih world.surface middle herase (follow middle) world world' hworld htold
      rwa [agree middle world'.surface hmiddle] at hrest
  | alter hchange _ ih =>
    cases hsees with
    | alter agree follow =>
      intro world world' hworld htold
      obtain ⟨middle, herase, hmiddle⟩ := telling.between htold
      refine ih follow (world.withSurface _) (world'.withSurface _) hworld ?_
      exact (telling.of_erase (hchange _ _ herase)).trans (telling.of_sees (agree _ _ hmiddle))

end Surface.Telling

/-! ### Trees -/

namespace Tree
variable {σ : Type} {tell : Surface → σ} {property : Constants → Prop} {tree sub : Tree}
  {home : TreeId} {env : Env} {id : NodeId}

/-- A get of a node that is not constant matches what is run in it, be it the body or not. -/
theorem matches_get (fit : Constants.Fit tree home property) (hsub : tree.Sub id sub)
    (reference : sub.isReference = true) (hnot : sub.isConstant = false) {act act' : Eval Value}
    (h : act.Matches tell property Value.Same act') (kind : Kind) (source : Value) :
    (Engine.traced id kind source false some (Engine.visiting id source
      (Engine.cached home id ((sub.handle env home id).ask .constant) act))).Matches
        tell property Value.Same act' := by
  apply Eval.Matches.traced_left
  apply Eval.Matches.visiting_left
  intro world world' hworld htold
  obtain ⟨begun, hbegun, hproperty, hact⟩ := cached_ask_eq_act fit hsub reference hnot hworld
  rw [hact]
  exact h begun world' hproperty (by rw [hbegun, htold])

end Tree

namespace Surface.Telling
variable {σ : Type} {tell : Surface → σ} {sees : Surface → Surface → Prop}
  (telling : Surface.Telling tell sees) {property : Constants → Prop} {tree sub : Tree}
  {home : TreeId} {env env' : Env} {id : NodeId}
include telling

section Body
variable {body : Body} (reference : body.isReference = true) {gateway : Option Registry}
  (respects : ∀ registry ∈ gateway, registry.Respects) {reach reach' : Nat → Handle}
  (hreach : ∀ index, (reach index).Matches tell property (reach' index))
include reference respects hreach

theorem read (seat : Seat) {source source' : Value} (hsource : source.erase = source'.erase) :
    ((body.read seat source).run reach gateway).Matches tell property Value.Same
      ((body.read seat source').run reach' gateway) :=
  telling.run hreach respects
    (Body.similar_read (Body.ne_host_of_isReference reference) seat hsource)
    (Body.sees_read telling.sight (Body.isStandard_of_isReference reference) seat source')

theorem assign {seat : Seat} (hseat : seat.Respects) {target target' value value' : Value}
    (htarget : target.erase = target'.erase) (hvalue : value.erase = value'.erase) :
    ((body.assign seat target value).run reach gateway).Matches tell property Eq
      ((body.assign seat target' value').run reach' gateway) :=
  telling.run hreach respects
    (Body.similar_assign (Body.ne_host_of_isReference reference) hseat htarget hvalue)
    (Body.sees_assign telling.sight (Body.isStandard_of_isReference reference) seat target' value')

end Body

theorem handle (fit : Constants.Fit tree home property) (hsub : tree.Sub id sub)
    (reference : sub.isReference = true) (plain : env'.Plain home)
    (gateway : env'.gateway = env.gateway) (respects : ∀ registry ∈ env.gateway, registry.Respects)
    (reads : ∀ id sub, tree.Sub id sub → ∀ accessor ∈ env.accessor home id, ∀ source source',
      source.erase = source'.erase →
        ((accessor.read source).run env.enter env.gateway).Matches tell property Value.Same
          ((sub.uncached env' home id).get source'))
    (assigns : ∀ id sub, tree.Sub id sub → ∀ accessor ∈ env.accessor home id,
      ∀ target target' value value', target.erase = target'.erase → value.erase = value'.erase →
        ((accessor.assign target value).run env.enter env.gateway).Matches tell property Eq
          ((sub.uncached env' home id).set target' value')) :
    (sub.handle env home id).Matches tell property (sub.uncached env' home id) := by
  induction id, sub using Tree.child_induction with
  | node id body slots ih =>
    have hbody := reference
    rw [Tree.isReference, Bool.and_eq_true] at hbody
    have hreach : ∀ index, (Engine.reach body.kind
        (Tree.child env home (id + 1) slots) index).Matches tell property
          (Engine.reach body.kind (Tree.uncachedChild env' home (id + 1) slots) index) := by
      intro index
      rw [Engine.reach, Engine.reach, Tree.child_eq, Tree.uncachedChild_eq]
      cases hentry : Tree.child? (id + 1) slots index with
      | none => exact .absent _
      | some entry =>
        exact ih index entry hentry (hsub.child hentry) (Tree.isReference_child hbody.2 hentry)
    constructor
    · intro source source' hsource
      cases constant : (Tree.node body slots).isConstant with
      | true =>
        -- A constant node need not be followed step by step: both sides come to its outcome.
        exact (Tree.yields_get fit hsub reference constant source).matches
          (fun _ _ => telling.of_erase) (Tree.yields_uncached reference constant plain id source')
      | false =>
        cases h : Engine.substitute? env home id body with
        | none =>
          rw [Tree.handle_get h, Tree.uncached_get plain, gateway]
          refine Tree.matches_get fit hsub reference constant ?_ body.kind source
          apply Eval.Matches.traced_right
          apply Eval.Matches.visiting_right
          exact telling.read hbody.1 respects hreach _ hsource
        | some accessor =>
          rw [Tree.handle_get_of_accessor h]
          exact Tree.matches_get fit hsub reference constant
            (reads id _ hsub accessor (Engine.substitute?_mem h) source source' hsource)
            body.kind source
    · intro target target' value value' htarget hvalue
      cases h : Engine.substitute? env home id body with
      | none =>
        rw [Tree.handle_set h, Tree.uncached_set plain, gateway]
        apply Eval.Matches.traced_left
        apply Eval.Matches.visiting_left
        apply Eval.Matches.traced_right
        apply Eval.Matches.visiting_right
        exact telling.assign hbody.1 respects hreach (Tree.seat_respects _) htarget hvalue
      | some accessor =>
        rw [Tree.handle_set_of_accessor h]
        apply Eval.Matches.traced_left
        apply Eval.Matches.visiting_left
        exact assigns id _ hsub accessor (Engine.substitute?_mem h) target target' value value'
          htarget hvalue

end Surface.Telling
end ObjectNavigation
