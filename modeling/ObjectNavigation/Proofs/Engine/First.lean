import ObjectNavigation.Proofs.Engine.Kept
import ObjectNavigation.Proofs.Engine.Parallel

/-!
The first get of a tree. It asks every node at most once and keeps each constant only after it was
last needed, so it has the very outcome that it has without constants (`Tree.first_get`): the same
value with the same lists, or the same error, and the same surface afterwards.
-/

namespace ObjectNavigation

namespace Constants

/-- Nothing is known of the nodes from `next` on, and nothing is kept for the pending ones. -/
structure Untouched (home : TreeId) (pending : NodeId → Prop) (next : NodeId)
    (constants : Constants) : Prop where
  blank : ∀ id, next ≤ id → constants.cell home id = {}
  spare : ∀ id, pending id → (constants.cell home id).value = none

namespace Untouched
variable {home : TreeId} {pending : NodeId → Prop} {id next : NodeId} {constants : Constants}

theorem mono (h : Untouched home pending id constants) (hle : id ≤ next) :
    Untouched home pending next constants :=
  ⟨fun other hother => h.blank other (Nat.le_trans hle hother), h.spare⟩

theorem check (h : Untouched home pending id constants) :
    Untouched home (fun other => other = id ∨ pending other) (id + 1)
      (constants.check home id) where
  blank other hother := by
    rw [cell_check_of_ne _ fun heq => Nat.ne_of_gt hother heq.2]
    exact h.blank other (Nat.le_of_succ_le hother)
  spare other hother := by
    rw [Constants.check, cell_put]
    split
    next => rw [h.blank id (Nat.le_refl id)]
    next hne =>
      rcases hother with rfl | hother
      · exact absurd ⟨rfl, rfl⟩ hne
      · exact h.spare other hother

theorem finish
    (h : Untouched home (fun other => other = id ∨ pending other) next constants) :
    Untouched home pending next constants :=
  ⟨h.blank, fun other hother => h.spare other (.inr hother)⟩

theorem keep (h : Untouched home (fun other => other = id ∨ pending other) next constants)
    (hid : id < next) (below : ∀ other, pending other → other < id) (value : Value) :
    Untouched home pending next (constants.keep home id value) where
  blank other hother := by
    rw [cell_keep_of_ne _ _ fun heq => Nat.ne_of_gt (Nat.lt_of_lt_of_le hid hother) heq.2]
    exact h.blank other hother
  spare other hother := by
    rw [cell_keep_of_ne _ _ fun heq => Nat.ne_of_lt (below other hother) heq.2]
    exact h.spare other (.inr hother)

end Untouched
end Constants

namespace Eval.Parallel
variable {α β : Type} {before middle after : Constants → Constants → Prop}

theorem cached_first {home : TreeId} {pending : NodeId → Prop} {id next : NodeId}
    {ask : Eval Bool} {act act' : Eval Value} {constant : Bool}
    (answers : ∀ world, ask world = (.ok (.ok constant), world)) (hid : id < next)
    (below : ∀ other, pending other → other < id)
    (h : act.Parallel
      (fun constants _ => Constants.Untouched home (fun other => other = id ∨ pending other)
        (id + 1) constants)
      (fun constants _ => Constants.Untouched home (fun other => other = id ∨ pending other) next
        constants) act') :
    (Engine.cached home id ask act).Parallel
      (fun constants _ => Constants.Untouched home pending id constants)
      (fun constants _ => Constants.Untouched home pending next constants) act' := by
  intro world world' hsurface huntouched
  have hchecked := huntouched.check
  obtain ⟨houtcome, hsame, hafter⟩ :=
    h { world with constants := world.constants.check home id } world' hsurface hchecked
  have hvalue := hchecked.spare id (.inl rfl)
  rw [Engine.cached, huntouched.blank id (Nat.le_refl id), if_neg (by simp), Eval.andThen, answers]
  cases constant with
  | false =>
    simp only [Engine.kept, hvalue]
    exact ⟨houtcome, hsame, hafter.finish⟩
  | true =>
    simp only [Engine.keeping, Eval.andThen]
    rcases hact : act { world with constants := world.constants.check home id } with
      ⟨outcome, last⟩
    rw [hact] at houtcome hsame hafter
    cases outcome with
    | error misuse => exact ⟨houtcome, hsame, hafter.finish⟩
    | ok outcome =>
      cases outcome with
      | error error => exact ⟨houtcome, hsame, hafter.finish⟩
      | ok value =>
        -- No get of the node took place meanwhile, so it is this value that is kept.
        refine ⟨?_, hsame, hafter.keep hid below value⟩
        have hnone : (last.constants.cell home id).value = none := hafter.spare id (.inl rfl)
        rw [← houtcome]
        simp [Constants.keep, hnone]

/-! ### Slots one after another -/

section Bodies
variable {reach reach' : Nat → Handle} {gateway : Option Registry}

theorem done {outcome : Except EvalError α}
    (himp : ∀ constants constants', before constants constants' → after constants constants') :
    ((Script.done outcome).run reach gateway).Parallel before after
      ((Script.done outcome).run reach' gateway) :=
  (Eval.Parallel.finish outcome).mono (fun _ _ => id) himp

theorem bind {script : BodyScript α}
    (first : (script.run reach gateway).Parallel before middle (script.run reach' gateway))
    {next : α → BodyScript β}
    (hnext : ∀ value, ((next value).run reach gateway).Parallel middle after
      ((next value).run reach' gateway))
    (himp : ∀ constants constants', middle constants constants' → after constants constants') :
    ((script >>= next).run reach gateway).Parallel before after
      ((script >>= next).run reach' gateway) := by
  rw [Script.bind_eq_andThen, Script.run_andThen, Script.run_andThen]
  refine first.andThen (fun outcome => ?_) himp
  cases outcome with
  | ok value => exact hnext value
  | error error => exact done himp

theorem look {next : Surface → BodyScript α}
    (hnext : ∀ surface, ((next surface).run reach gateway).Parallel before after
      ((next surface).run reach' gateway)) :
    ((Script.look next).run reach gateway).Parallel before after
      ((Script.look next).run reach' gateway) := by
  intro world world' hsurface hconstants
  have hrest := hnext world.surface world world' hsurface hconstants
  simp only [Script.run]
  rw [← hsurface]
  exact hrest

theorem newList (items : List Value) :
    ((Script.newList items).run reach gateway).Parallel before before
      ((Script.newList items).run reach' gateway) := by
  refine look fun surface world world' hsurface hconstants => ⟨rfl, ?_, hconstants⟩
  show world.surface.withHeap _ = world'.surface.withHeap _
  rw [hsurface]

theorem call (invocation : Invocation) :
    ((Script.call invocation).run reach gateway).Parallel before before
      ((Script.call invocation).run reach' gateway) :=
  (Eval.Parallel.invoke gateway invocation).andThen (fun _ => done fun _ _ => id) fun _ _ => id

section InTurn
variable {stage : Nat → Constants → Constants → Prop}
  (hreach : ∀ index source, ((reach index).get source).Parallel (stage index) (stage (index + 1))
    ((reach' index).get source))
include hreach

theorem getValue (index : Nat) (source : Value) :
    ((Script.getValue index source).run reach gateway).Parallel (stage index) (stage (index + 1))
      ((Script.getValue index source).run reach' gateway) := by
  rw [Script.run_getValue, Script.run_getValue]
  exact hreach index source

variable (later : ∀ index index', index ≤ index' → ∀ constants constants',
    stage index constants constants' → stage index' constants constants')
include later

theorem walk (count : Nat) (source : Value) :
    ((Body.walk count source).run reach gateway).Parallel (stage 0) (stage count)
      ((Body.walk count source).run reach' gateway) := by
  induction count with
  | zero => exact done fun _ _ => id
  | succ count ih =>
    rw [Body.walk_succ]
    exact ih.bind (getValue hreach count) (later _ _ (Nat.le_succ count))

theorem mapM (source : Value) (start count : Nat) :
    (((List.range' start count).mapM (Script.getValue · source)).run reach gateway).Parallel
      (stage start) (stage (start + count))
      (((List.range' start count).mapM (Script.getValue · source)).run reach' gateway) := by
  induction count generalizing start with
  | zero => exact done fun _ _ => id
  | succ count ih =>
    rw [List.range'_succ, List.mapM_cons, Nat.add_comm count, ← Nat.add_assoc]
    refine (getValue hreach start source).bind (fun value => ?_) (later _ _ (Nat.le_add_right _ _))
    exact (ih (start + 1)).bind (fun values => done fun _ _ => id) fun _ _ => id

theorem operands (seat : Seat) (source : Value) :
    ((Body.operands seat source).run reach gateway).Parallel (stage 0) (stage seat.slots)
      ((Body.operands seat source).run reach' gateway) := by
  have hmapM :
      (((List.range' 0 seat.slots).mapM (Script.getValue · source)).run reach gateway).Parallel
        (stage 0) (stage (0 + seat.slots)) _ := mapM hreach later source 0 seat.slots
  rwa [← List.range_eq_range', Nat.zero_add] at hmapM

variable {last : Constants → Constants → Prop}
  (hlast : ∀ index constants constants', stage index constants constants' →
    last constants constants')
include hlast

/-- A body of the library reaches its slots in order, each at most once. -/
theorem read {body : Body} (standard : body.isStandard = true) (seat : Seat) (source : Value) :
    ((body.read seat source).run reach gateway).Parallel (stage 0) last
      ((body.read seat source).run reach' gateway) := by
  have hoperands : ∀ source, ((Body.operands seat source).run reach gateway).Parallel (stage 0)
      (stage seat.slots) ((Body.operands seat source).run reach' gateway) :=
    operands hreach later seat
  have harguments : ((Body.arguments seat).run reach gateway).Parallel (stage 0) (stage seat.slots)
      ((Body.arguments seat).run reach' gateway) :=
    look fun surface => hoperands surface.settings.root
  cases body with
  | const value => exact done (hlast 0)
  | property name =>
    refine look fun surface => ?_
    cases source with
    | object o =>
      dsimp only [Script.andThen, Script.onOk, Script.succeed]
      cases surface.heap.get? o name with
      | none => exact done (hlast 0)
      | some value => exact done (hlast 0)
    | _ => exact done (hlast 0)
  | chain => exact (walk hreach later seat.slots source).mono (fun _ _ => id) (hlast seat.slots)
  | arithmetic op =>
    refine (hoperands source).bind (fun values => ?_) (hlast seat.slots)
    cases values with
    | nil => exact done (hlast seat.slots)
    | cons value rest => exact look fun surface => done (hlast seat.slots)
  | negate =>
    refine (getValue hreach 0 source).bind (fun value => ?_) (hlast 1)
    exact look fun surface => done (hlast 1)
  | list =>
    refine (hoperands source).bind (fun values => ?_) (hlast seat.slots)
    exact (newList values).mono (fun _ _ => id) (hlast seat.slots)
  | method name =>
    refine harguments.bind (fun values => ?_) (hlast seat.slots)
    exact (call (.onTarget source name values)).mono (fun _ _ => id) (hlast seat.slots)
  | staticMethod typeName name =>
    refine harguments.bind (fun values => ?_) (hlast seat.slots)
    exact (call (.onType typeName name values)).mono (fun _ _ => id) (hlast seat.slots)
  | host host => cases standard

end InTurn

end Bodies

end Eval.Parallel

namespace Tree
variable {env : Env} {home : TreeId}

/-- Where nothing is known of its nodes, a tree does in a get what it does without constants. -/
theorem first_get (plain : env.Plain home) {id : NodeId} {tree : Tree}
    (standard : tree.all Body.isStandard = true) {pending : NodeId → Prop}
    (below : ∀ other, pending other → other < id) (source : Value) :
    ((tree.handle env home id).get source).Parallel
      (fun constants _ => Constants.Untouched home pending id constants)
      (fun constants _ => Constants.Untouched home pending (id + tree.size) constants)
      ((tree.uncached env home id).get source) := by
  induction id, tree using child_induction generalizing pending source with
  | node id body slots ih =>
    have answers : ∀ world, ((Tree.node body slots).handle env home id).ask .constant world =
        (.ok (.ok (Tree.node body slots).isConstant), world) :=
      ask_constant_of_standard standard env home id
    rw [all, Bool.and_eq_true] at standard
    rw [handle_get (Engine.substitute?_eq_none plain id body), uncached_get plain]
    have hid : id < id + (Tree.node body slots).size := Nat.lt_add_of_pos_right (size_pos _)
    refine (Eval.Parallel.cached_first answers hid below ?_).entered _ _ _ _ _ _
    -- The slots before are done with, and the node itself waits until its body ends.
    have hreach : ∀ index source,
        ((Engine.reach body.kind (child env home (id + 1) slots) index).get source).Parallel
          (fun constants _ => Constants.Untouched home (fun other => other = id ∨ pending other)
            (id + 1 + sizeSlots (slots.take index)) constants)
          (fun constants _ => Constants.Untouched home (fun other => other = id ∨ pending other)
            (id + 1 + sizeSlots (slots.take (index + 1))) constants)
          ((Engine.reach body.kind (uncachedChild env home (id + 1) slots) index).get source) := by
      intro index source
      rw [Engine.reach, Engine.reach, child_eq, uncachedChild_eq]
      cases hentry : child? (id + 1) slots index with
      | none =>
        intro world world' hsurface huntouched
        exact ⟨rfl, hsurface, huntouched.mono (Nat.add_le_add_left
          (sizeSlots_take_mono slots (Nat.le_succ index)) _)⟩
      | some entry =>
        obtain ⟨hfirst, hlast⟩ := child?_bounds hentry
        rw [← hfirst, ← hlast]
        refine ih index entry hentry (all_child standard.2 hentry) (fun other hother => ?_) source
        have hnext : id < entry.1 := by
          rw [hfirst]
          exact Nat.lt_of_lt_of_le (Nat.lt_succ_self id) (Nat.le_add_right _ _)
        rcases hother with rfl | hother
        · exact hnext
        · exact Nat.lt_trans (below other hother) hnext
    refine Eval.Parallel.read hreach (fun index index' hle constants constants' h => ?_)
      (fun index constants constants' h => ?_) standard.1 _ source
    · exact h.mono (Nat.add_le_add_left (sizeSlots_take_mono slots hle) _)
    · rw [size, ← Nat.add_assoc]
      exact h.mono (Nat.add_le_add_left (sizeSlots_take_le slots index) _)

end Tree
end ObjectNavigation
