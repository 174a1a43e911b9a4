import ObjectNavigation.Proofs.Engine.First
import ObjectNavigation.Proofs.Script.Sees

/-!
Effects. The effect of a tree is what its evaluation without constants makes of a surface: a value
and the surface that is left, if it succeeds. It is one effect at all places and in all contexts
(`Tree.uncached_effect`), and the effect of an operator is that of its operands, one after another,
and then of the operation (`Tree.effect_arithmetic`).
-/

namespace ObjectNavigation

/-- A value, and what is left of a surface; or nothing, for a failure. -/
abbrev Effect (α : Type) := StateT Surface Option α

def Effect.outcome {α : Type} (outcome : Except EvalError α) : Effect α := fun surface =>
  outcome.toOption.map (·, surface)

def Surface.world (surface : Surface) : World where
  outside := surface.outside
  context := { settings := surface.settings }

namespace Eval
variable {α β : Type}

/-- What a computation gives and leaves, if it succeeds. -/
def success (act : Eval α) (world : World) : Option (α × Surface) :=
  match act world with
  | (.ok (.ok value), after) => some (value, after.surface)
  | _ => none

theorem success_eq_some_iff {act : Eval α} {world : World} {value : α} {surface : Surface} :
    act.success world = some (value, surface) ↔
      (act world).1 = .ok (.ok value) ∧ (act world).2.surface = surface := by
  rw [success]
  rcases act world with ⟨misuse | (error | found), after⟩ <;> simp

theorem success_congr {act act' : Eval α} {world world' : World}
    (houtcome : (act world).1 = (act' world').1)
    (hsurface : (act world).2.surface = (act' world').2.surface) :
    act.success world = act'.success world' := by
  rw [success, success]
  rcases hact : act world with ⟨outcome, after⟩
  rcases hact' : act' world' with ⟨outcome', after'⟩
  rw [hact, hact'] at houtcome hsurface
  cases houtcome
  rcases outcome with misuse | (error | value)
  · rfl
  · rfl
  · exact congrArg (fun surface => some (value, surface)) hsurface

theorem Parallel.success_eq {before after : Constants → Constants → Prop} {act act' : Eval α}
    (h : act.Parallel before after act') {world world' : World}
    (hsurface : world.surface = world'.surface)
    (hconstants : before world.constants world'.constants) :
    act.success world = act'.success world' := by
  obtain ⟨houtcome, hsame, _⟩ := h world world' hsurface hconstants
  exact success_congr houtcome hsame

def HasEffect (act : Eval α) (effect : Effect α) : Prop :=
  ∀ world, act.success world = effect world.surface

namespace HasEffect
variable {effect : Effect α} {act : Eval α} {reach : Nat → Handle} {gateway : Option Registry}

theorem done (outcome : Except EvalError α) :
    ((Script.done outcome).run reach gateway).HasEffect (Effect.outcome outcome) := by
  intro world
  cases outcome <;> rfl

theorem bind {script : BodyScript α} (first : (script.run reach gateway).HasEffect effect)
    {next : α → BodyScript β} {follow : α → Effect β}
    (hnext : ∀ value, ((next value).run reach gateway).HasEffect (follow value)) :
    ((script >>= next).run reach gateway).HasEffect (effect >>= follow) := by
  intro world
  have hfirst := first world
  rw [Script.bind_eq_andThen, Script.run_andThen]
  simp only [success, Eval.andThen, Bind.bind, StateT.bind] at hfirst ⊢
  rw [← hfirst]
  rcases script.run reach gateway world with ⟨misuse | (error | value), middle⟩
  · rfl
  · rfl
  · exact hnext value middle

theorem heap {next : Heap → BodyScript α} {follow : Heap → Effect α}
    (hnext : ∀ heap, ((next heap).run reach gateway).HasEffect (follow heap)) :
    ((Script.heap >>= next).run reach gateway).HasEffect
      fun surface => follow surface.heap surface :=
  fun world => hnext world.heap world

theorem getValue {index : Nat} {source : Value} {effect : Effect Value}
    (h : ((reach index).get source).HasEffect effect) :
    ((Script.getValue index source).run reach gateway).HasEffect effect := by
  rwa [Script.run_getValue]

theorem mapM {indices : List Nat} {source : Value} {effect : Nat → Effect Value}
    (h : ∀ index, ((reach index).get source).HasEffect (effect index)) :
    ((indices.mapM (Script.getValue · source)).run reach gateway).HasEffect
      (indices.mapM effect) := by
  induction indices with
  | nil => exact done (.ok [])
  | cons index rest ih =>
    rw [List.mapM_cons, List.mapM_cons]
    exact (getValue (h index)).bind fun value => ih.bind fun values => done (.ok (value :: values))

theorem traced (h : act.HasEffect effect) (node : NodeId) (kind : Kind) (source : Value)
    (setter : Bool) (result : α → Option Value) :
    (Engine.traced node kind source setter result act).HasEffect effect := by
  intro world
  obtain ⟨begun, hbegun, _, houtcome, hafter, _⟩ :=
    Engine.traced_eq node kind source setter result act world
  rw [← hbegun, ← h begun]
  exact success_congr houtcome hafter

theorem visiting (h : act.HasEffect effect) (node : NodeId) (object : Value) :
    (Engine.visiting node object act).HasEffect effect :=
  fun world => h (world.visit node object)

end HasEffect
end Eval

namespace Tree
variable {env : Env} {home : TreeId}

/-- Without constants, it makes no difference where a tree stands. -/
theorem uncached_parallel (plain : env.Plain home) {home' : TreeId} (plain' : env.Plain home')
    {id : NodeId} {tree : Tree} (standard : tree.all Body.isStandard = true) (id' : NodeId) :
    (tree.uncached env home id).Parallel (fun _ _ => True) (tree.uncached env home' id') := by
  induction id, tree using child_induction generalizing id' with
  | node id body slots ih =>
    rw [all, Bool.and_eq_true] at standard
    have hhost := Body.ne_host_of_isStandard standard.1
    have hreach : ∀ index,
        (Engine.reach body.kind (uncachedChild env home (id + 1) slots) index).Parallel
          (fun _ _ => True)
          (Engine.reach body.kind (uncachedChild env home' (id' + 1) slots) index) := by
      intro index
      -- Where a child stands depends on the node, but not which child is in the slot.
      rw [Engine.reach, Engine.reach, uncachedChild_eq, uncachedChild_eq, child?_eq, child?_eq]
      cases hslot : slots[index]?.join with
      | none => exact .absent _
      | some child =>
        have hentry : (id + 1 + sizeSlots (slots.take index), child) ∈
            child? (id + 1) slots index := by
          rw [child?_eq, hslot]
          rfl
        exact ih index _ hentry (all_child standard.2 hentry) _
    constructor
    · intro source
      rw [uncached_get plain, uncached_get plain']
      have hrun := Eval.Parallel.run hreach env.gateway
        (Body.similar_read hhost (seat (.node body slots)) (rfl : source.erase = source.erase))
      exact hrun.entered _ _ _ _ _ _
    · intro target value
      rw [uncached_set plain, uncached_set plain']
      have hrun := Eval.Parallel.run hreach env.gateway
        (Body.similar_assign hhost (seat_respects (.node body slots))
          (rfl : target.erase = target.erase) (rfl : value.erase = value.erase))
      exact hrun.entered _ _ _ _ _ _

def effect (env : Env) (home : TreeId) (source : Value) (tree : Tree) : Effect Value :=
  fun surface => ((tree.uncached env home 0).get source).success surface.world

def slotEffect (env : Env) (home : TreeId) (source : Value) : Option Tree → Effect Value
  | some tree => tree.effect env home source
  | none => failure

theorem uncached_effect (plain : env.Plain home) {tree : Tree}
    (standard : tree.all Body.isStandard = true) (id : NodeId) (source : Value) :
    ((tree.uncached env home id).get source).HasEffect (tree.effect env home source) :=
  fun _ => ((uncached_parallel plain plain standard 0).get source).success_eq rfl trivial

theorem effect_eq_of_plain (plain : env.Plain home) {home' : TreeId} (plain' : env.Plain home')
    {tree : Tree} (standard : tree.all Body.isStandard = true) (source : Value) :
    tree.effect env home source = tree.effect env home' source := by
  funext surface
  exact ((uncached_parallel plain plain' standard 0).get source).success_eq rfl trivial

theorem effect_of_read (plain : env.Plain home) {body : Body} {slots : List (Option Tree)}
    {source : Value} {effect : Effect Value}
    (h : ((body.read (seat (.node body slots)) source).run
      (Engine.reach body.kind (uncachedChild env home 1 slots)) env.gateway).HasEffect effect) :
    (Tree.node body slots).effect env home source = effect := by
  funext surface
  rw [Tree.effect, uncached_get plain]
  exact ((h.visiting _ _).traced _ _ _ _ _) surface.world

theorem effect_const (plain : env.Plain home) (value : Value) (slots : List (Option Tree))
    (source : Value) : (Tree.node (.const value) slots).effect env home source = pure value :=
  effect_of_read plain (.done (.ok value))

theorem effect_property (plain : env.Plain home) (name : String) (slots : List (Option Tree))
    (o : ObjectId) : (Tree.node (.property name) slots).effect env home (.object o) =
      fun surface => (surface.heap.get? o name).map (·, surface) := by
  apply effect_of_read plain
  apply @Eval.HasEffect.heap _ _ _ _ fun heap surface => (heap.get? o name).map (·, surface)
  intro heap
  dsimp only
  cases heap.get? o name with
  | none => exact .done (.error _)
  | some value => exact .done (.ok value)

def combined (op : Operation) : List Value → Effect Value
  | [] => failure
  | first :: rest => fun surface => Effect.outcome (Body.fold op surface.heap first rest) surface

theorem effect_slot (plain : env.Plain home) {slots : List (Option Tree)}
    (standard : slotsAll Body.isStandard slots = true) (kind : Kind) (next : NodeId) (index : Nat)
    (source : Value) :
    ((Engine.reach kind (uncachedChild env home next slots) index).get source).HasEffect
      (slotEffect env home source slots[index]?.join) := by
  rw [Engine.reach, uncachedChild_eq, child?_eq]
  cases hslot : slots[index]?.join with
  | none => exact fun world => rfl
  | some child =>
    have hentry : (next + sizeSlots (slots.take index), child) ∈ child? next slots index := by
      rw [child?_eq, hslot]
      rfl
    exact uncached_effect plain (all_child standard hentry) _ source

/-- An operator evaluates its operands one after another, and then does the operation. -/
theorem effect_arithmetic (plain : env.Plain home) {op : Operation} {slots : List (Option Tree)}
    (standard : slotsAll Body.isStandard slots = true) (source : Value) :
    (Tree.node (.arithmetic op) slots).effect env home source =
      slots.mapM (slotEffect env home source) >>= combined op := by
  have hoperands : ((Body.operands (seat (.node (.arithmetic op) slots)) source).run
      (Engine.reach (Body.arithmetic op).kind (uncachedChild env home 1 slots))
      env.gateway).HasEffect (slots.mapM (slotEffect env home source)) := by
    rw [← mapM_range_slots]
    exact Eval.HasEffect.mapM fun index => effect_slot plain standard _ 1 index source
  apply effect_of_read plain
  refine hoperands.bind fun values => ?_
  cases values with
  | nil => exact fun world => rfl
  | cons first rest => exact Eval.HasEffect.heap fun heap => .done _

end Tree

/-! ### Settings -/

/-- From states with these settings to such states. -/
def Eval.Keeps {α : Type} (settings : Settings) (act : Eval α) : Prop :=
  ∀ world, world.context.settings = settings → (act world).2.context.settings = settings

structure Handle.Keeps (settings : Settings) (handle : Handle) : Prop where
  get : ∀ source, (handle.get source).Keeps settings
  set : ∀ target value, (handle.set target value).Keeps settings
  ask : ∀ question, (handle.ask question).Keeps settings

theorem Handle.Keeps.absent {settings : Settings} (error : EvalError) :
    (Handle.absent error).Keeps settings :=
  ⟨fun _ _ h => h, fun _ _ _ h => h, fun _ _ h => h⟩

theorem Surface.sight_settings (settings : Settings) :
    Script.Sight fun surface surface' => surface = surface' ∧ surface.settings = settings where
  heap h := congrArg Surface.heap h.1
  root h := congrArg (fun surface : Surface => surface.settings.root) h.1
  withHeap h heap := ⟨congrArg (Surface.withHeap · heap) h.1, h.2⟩

namespace Eval.Keeps
variable {α β : Type} {settings : Settings} {act : Eval α}

theorem andThen (first : act.Keeps settings) {next : Except EvalError α → Eval β}
    (hnext : ∀ outcome, (next outcome).Keeps settings) : (act.andThen next).Keeps settings := by
  intro world hworld
  have hfirst := first world hworld
  rw [Eval.andThen]
  rcases hact : act world with ⟨misuse | outcome, middle⟩ <;> rw [hact] at hfirst
  · exact hfirst
  · exact hnext outcome middle hfirst

theorem invoke (gateway : Option Registry) (call : Invocation) :
    (ObjectNavigation.invoke gateway call).Keeps settings := by
  intro world hworld
  cases gateway <;> exact hworld

theorem traced (h : act.Keeps settings) (node : NodeId) (kind : Kind) (source : Value)
    (setter : Bool) (result : α → Option Value) :
    (Engine.traced node kind source setter result act).Keeps settings := by
  intro world hworld
  obtain ⟨begun, hbegun, _, _, hafter, _⟩ :=
    Engine.traced_eq node kind source setter result act world
  have hstart : begun.context.settings = settings :=
    (congrArg Surface.settings hbegun).trans hworld
  exact (congrArg Surface.settings hafter).trans (h begun hstart)

theorem visiting (h : act.Keeps settings) (node : NodeId) (object : Value) :
    (Engine.visiting node object act).Keeps settings :=
  fun world hworld => h (world.visit node object) hworld

theorem run {C : Type} {reach : C → Handle} (hreach : ∀ child, (reach child).Keeps settings)
    (gateway : Option Registry) {script : Script C α}
    (h : script.Sees fun surface surface' => surface = surface' ∧ surface.settings = settings) :
    (script.run reach gateway).Keeps settings := by
  induction h with
  | done outcome => exact fun _ hworld => hworld
  | get _ ih => exact ((hreach _).get _).andThen ih
  | set _ ih => exact ((hreach _).set _ _).andThen ih
  | ask _ ih => exact ((hreach _).ask _).andThen ih
  | invoke _ ih => exact (Eval.Keeps.invoke gateway _).andThen ih
  | look _ _ ih => exact fun world hworld => ih world.surface world hworld
  | alter agree _ ih =>
    intro world hworld
    exact ih _ (agree world.surface world.surface ⟨rfl, hworld⟩).2

end Eval.Keeps

namespace Tree
variable {env : Env} {home : TreeId}

/-- The bodies of the library leave the settings as they are. -/
theorem uncached_keeps (plain : env.Plain home) (settings : Settings) {id : NodeId} {tree : Tree}
    (standard : tree.all Body.isStandard = true) :
    (tree.uncached env home id).Keeps settings := by
  induction id, tree using child_induction with
  | node id body slots ih =>
    rw [all, Bool.and_eq_true] at standard
    have hreach : ∀ index,
        (Engine.reach body.kind (uncachedChild env home (id + 1) slots) index).Keeps settings := by
      intro index
      rw [Engine.reach, uncachedChild_eq]
      cases hentry : child? (id + 1) slots index with
      | none => exact .absent _
      | some entry => exact ih index entry hentry (all_child standard.2 hentry)
    have sight := Surface.sight_settings settings
    constructor
    · intro source
      rw [uncached_get plain]
      exact ((Eval.Keeps.run hreach env.gateway
        (Body.sees_read sight standard.1 _ source)).visiting _ _).traced _ _ _ _ _
    · intro target value
      rw [uncached_set plain]
      exact ((Eval.Keeps.run hreach env.gateway
        (Body.sees_assign sight standard.1 _ target value)).visiting _ _).traced _ _ _ _ _
    · exact fun question => .run hreach env.gateway (Body.sees_ask sight standard.1 _ question)

theorem settings_of_effect (plain : env.Plain home) {tree : Tree}
    (standard : tree.all Body.isStandard = true) {source value : Value} {surface after : Surface}
    (h : tree.effect env home source surface = some (value, after)) :
    after.settings = surface.settings := by
  obtain ⟨_, rfl⟩ := Eval.success_eq_some_iff.1 h
  exact (uncached_keeps plain surface.settings standard).get source surface.world rfl

end Tree
end ObjectNavigation
