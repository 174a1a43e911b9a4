import ObjectNavigation.Proofs.Engine.Kept
import ObjectNavigation.Proofs.Script.Similar

/-!
Two evaluations in step. From states that are the same outside the engine they come to one outcome,
and to such states again; what is kept for constants may differ, as told by one relation before and
by another after. Both may be recorded, each under its own names.
-/

namespace ObjectNavigation

def Eval.Parallel {α : Type} (before after : Constants → Constants → Prop) (act act' : Eval α) :
    Prop :=
  ∀ world world', world.surface = world'.surface → before world.constants world'.constants →
    (act world).1 = (act' world').1 ∧ (act world).2.surface = (act' world').2.surface ∧
      after (act world).2.constants (act' world').2.constants

namespace Eval.Parallel
variable {α β : Type} {before middle after related : Constants → Constants → Prop}
  {act act' : Eval α}

theorem mono {before' after' : Constants → Constants → Prop} (h : act.Parallel before after act')
    (hbefore : ∀ constants constants', before' constants constants' → before constants constants')
    (hafter : ∀ constants constants', after constants constants' → after' constants constants') :
    act.Parallel before' after' act' := by
  intro world world' hsurface hconstants
  obtain ⟨houtcome, hsame, hrelated⟩ := h world world' hsurface (hbefore _ _ hconstants)
  exact ⟨houtcome, hsame, hafter _ _ hrelated⟩

theorem finish (outcome : Except EvalError α) :
    (Eval.finish outcome).Parallel related related (Eval.finish outcome) :=
  fun _ _ hsurface hconstants => ⟨rfl, hsurface, hconstants⟩

/-- The failure of the first is the failure of the whole, so what holds after it has to hold in the
end. -/
theorem andThen (first : act.Parallel before middle act') {next next' : Except EvalError α → Eval β}
    (hnext : ∀ outcome, (next outcome).Parallel middle after (next' outcome))
    (himp : ∀ constants constants', middle constants constants' → after constants constants') :
    (act.andThen next).Parallel before after (act'.andThen next') := by
  intro world world' hsurface hconstants
  obtain ⟨houtcome, hmiddle, hrelated⟩ := first world world' hsurface hconstants
  rw [Eval.andThen, Eval.andThen]
  rcases hact : act world with ⟨outcome, last⟩
  rcases hact' : act' world' with ⟨outcome', last'⟩
  rw [hact, hact'] at houtcome hmiddle hrelated
  cases houtcome
  cases outcome with
  | error misuse => exact ⟨rfl, hmiddle, himp _ _ hrelated⟩
  | ok outcome => exact hnext outcome last last' hmiddle hrelated

theorem invoke (gateway : Option Registry) (call : Invocation) :
    (ObjectNavigation.invoke gateway call).Parallel related related
      (ObjectNavigation.invoke gateway call) := by
  intro world world' hsurface hconstants
  have houtside : world.outside = world'.outside := congrArg Surface.outside hsurface
  have hsettings : world.context.settings = world'.context.settings :=
    congrArg Surface.settings hsurface
  cases gateway with
  | none =>
    refine ⟨?_, hsurface, hconstants⟩
    simp only [ObjectNavigation.invoke, World.heap, houtside]
  | some registry =>
    simp only [ObjectNavigation.invoke, World.surface, houtside, hsettings, true_and]
    exact hconstants

/-! ### Layers -/

theorem traced_left (h : act.Parallel before after act') (node : NodeId) (kind : Kind)
    (source : Value) (setter : Bool) (result : α → Option Value) :
    (Engine.traced node kind source setter result act).Parallel before after act' := by
  intro world world' hsurface hconstants
  obtain ⟨begun, hbegun, hkept, houtcome, hafter, hafter'⟩ :=
    Engine.traced_eq node kind source setter result act world
  rw [houtcome, hafter, hafter']
  exact h begun world' (hbegun.trans hsurface) (hkept ▸ hconstants)

theorem traced_right (h : act.Parallel before after act') (node : NodeId) (kind : Kind)
    (source : Value) (setter : Bool) (result : α → Option Value) :
    act.Parallel before after (Engine.traced node kind source setter result act') := by
  intro world world' hsurface hconstants
  obtain ⟨begun, hbegun, hkept, houtcome, hafter, hafter'⟩ :=
    Engine.traced_eq node kind source setter result act' world'
  rw [houtcome, hafter, hafter']
  exact h world begun (hsurface.trans hbegun.symm) (hkept ▸ hconstants)

theorem visiting_left (h : act.Parallel before after act') (node : NodeId) (object : Value) :
    (Engine.visiting node object act).Parallel before after act' :=
  fun world world' hsurface hconstants => h (world.visit node object) world' hsurface hconstants

theorem visiting_right (h : act.Parallel before after act') (node : NodeId) (object : Value) :
    act.Parallel before after (Engine.visiting node object act') :=
  fun world world' hsurface hconstants => h world (world'.visit node object) hsurface hconstants

theorem entered (h : act.Parallel before after act') (node node' : NodeId) (kind : Kind)
    (object : Value) (setter : Bool) (result : α → Option Value) :
    (Engine.traced node kind object setter result (Engine.visiting node object act)).Parallel before
      after
      (Engine.traced node' kind object setter result (Engine.visiting node' object act')) :=
  (((h.visiting_left node object).visiting_right node' object).traced_left node kind object setter
    result).traced_right node' kind object setter result

end Eval.Parallel

structure Handle.Parallel (related : Constants → Constants → Prop) (handle handle' : Handle) :
    Prop where
  get : ∀ source, (handle.get source).Parallel related related (handle'.get source)
  set : ∀ target value, (handle.set target value).Parallel related related
    (handle'.set target value)

theorem Handle.Parallel.absent {related : Constants → Constants → Prop} (error : EvalError) :
    (Handle.absent error).Parallel related (Handle.absent error) :=
  ⟨fun _ => .finish _, fun _ _ => .finish _⟩

theorem Alike.refl {α : Type} {same : α → α → Prop} (h : ∀ value, same value value)
    (outcome : Except EvalError α) : Alike same outcome outcome := by
  cases outcome with
  | ok value => exact .ok (h value)
  | error error => exact .error error

/-- A script that asks nothing, nor where it stands, runs in step with itself if what it reaches is
in step. Such are the scripts that are similar to something. -/
theorem Eval.Parallel.run {C α : Type} {related : Constants → Constants → Prop}
    {reach reach' : C → Handle} (hreach : ∀ child, (reach child).Parallel related (reach' child))
    (gateway : Option Registry) {script : Script C α} {same : α → α → Prop}
    (h : Script.Similar same script script) :
    (script.run reach gateway).Parallel related related (script.run reach' gateway) := by
  -- The induction is on the similarity, whose two scripts have to be variables.
  obtain ⟨script', heq, hsimilar⟩ :
      ∃ script', script = script' ∧ Script.Similar same script script' := ⟨script, rfl, h⟩
  clear h
  induction hsimilar with
  | done h => exact .finish _
  | get hsource _ ih =>
    cases heq
    refine ((hreach _).get _).andThen (fun outcome => ?_) fun _ _ => id
    exact ih outcome outcome (.refl Value.same_equivalence.refl outcome) rfl
  | set htarget hvalue _ ih =>
    cases heq
    exact ((hreach _).set _ _).andThen (fun outcome => ih outcome rfl) fun _ _ => id
  | invoke hcall _ ih =>
    cases heq
    refine (Eval.Parallel.invoke gateway _).andThen (fun outcome => ?_) fun _ _ => id
    exact ih outcome outcome (.refl Value.same_equivalence.refl outcome) rfl
  | look _ ih =>
    cases heq
    intro world world' hsurface hconstants
    have hrest := ih world.surface world.surface rfl rfl world world' hsurface hconstants
    simp only [Script.run]
    rw [← hsurface]
    exact hrest
  | alter hchange _ ih =>
    cases heq
    intro world world' hsurface hconstants
    refine ih rfl (world.withSurface _) (world'.withSurface _) ?_ hconstants
    rw [hsurface]
    rfl

end ObjectNavigation
