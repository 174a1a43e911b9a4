import ObjectNavigation.Proofs.Engine.Assignment
import ObjectNavigation.Proofs.Engine.Caching
import ObjectNavigation.Proofs.Engine.Effect
import ObjectNavigation.Proofs.Node.Nest
import ObjectNavigation.Proofs.Value.Fold

/-!
Sums of sums and products of products. A flat node takes all operands before it combines any, and a
nest combines some in between. Where only first operands are nested, the same operands are combined
in the same order, so a nest whose operands leave the objects as they are has the effect of the flat
node, with the same promotions and texts and at the same overflow (`Tree.effect_of_leftNested`).
Where others are nested too, a text may come between two numbers that the nest adds first. But over
integers either gives the exact sum or product of all operands (`Tree.total_of_effect`), so they
agree where neither overflows. `Tree.flattened_agrees` says both of gets, before and after a value
is kept.
-/

namespace ObjectNavigation

namespace Effect
variable {α β : Type} {effect : Effect α} {surface after : Surface}

theorem bind_eq_some_iff {follow : α → Effect β} {value : β} :
    (effect >>= follow) surface = some (value, after) ↔
      ∃ first middle, effect surface = some (first, middle) ∧
        follow first middle = some (value, after) := by
  show (effect surface >>= fun result => follow result.1 result.2) = _ ↔ _
  simp [Option.bind_eq_some_iff]

theorem outcome_eq_some_iff {outcome : Except EvalError α} {value : α} :
    Effect.outcome outcome surface = some (value, after) ↔
      outcome = .ok value ∧ after = surface := by
  cases outcome <;> simp [Effect.outcome, Except.toOption, eq_comm]

theorem pure_eq_some_iff {found value : α} :
    (pure found : Effect α) surface = some (value, after) ↔ found = value ∧ surface = after := by
  show some (found, surface) = _ ↔ _
  simp

theorem bind_congr {other : Effect α} (h : effect surface = other surface) (follow : α → Effect β) :
    (effect >>= follow) surface = (other >>= follow) surface := by
  show (effect surface >>= fun result => follow result.1 result.2) = _
  rw [h]
  rfl

def Preserves (usual : Surface → Prop) (effect : Effect α) : Prop :=
  ∀ surface, usual surface → ∀ value after, effect surface = some (value, after) → usual after

def GivesInts (usual : Surface → Prop) (effect : Effect Value) : Prop :=
  ∀ surface, usual surface → ∀ value after, effect surface = some (value, after) →
    ∃ n, value = .int n

end Effect

namespace Tree
variable {env : Env} {home : TreeId} {op : Operation} {source : Value} {surface after : Surface}

theorem combined_eq_some_iff {values : List Value} {value : Value} :
    combined op values surface = some (value, after) ↔
      ∃ first rest, values = first :: rest ∧ Body.fold op surface.heap first rest = .ok value ∧
        after = surface := by
  cases values with
  | nil => simp [combined, failure, Alternative.failure, StateT.failure]
  | cons first rest =>
    show Effect.outcome _ surface = _ ↔ _
    rw [Effect.outcome_eq_some_iff]
    constructor
    · rintro ⟨hfold, hafter⟩
      exact ⟨first, rest, rfl, hfold, hafter⟩
    · rintro ⟨_, _, ⟨⟩, hfold, hafter⟩
      exact ⟨hfold, hafter⟩

section Slots
variable {slots others : List (Option Tree)} {values : List Value}

theorem slots_eq_some_iff {slot : Option Tree} :
    (slot :: slots).mapM (slotEffect env home source) surface = some (values, after) ↔
      ∃ value middle rest, slotEffect env home source slot surface = some (value, middle) ∧
        slots.mapM (slotEffect env home source) middle = some (rest, after) ∧
          values = value :: rest := by
  simp only [List.mapM_cons, Effect.bind_eq_some_iff, Effect.pure_eq_some_iff]
  constructor
  · rintro ⟨value, middle, hvalue, rest, last, hrest, rfl, rfl⟩
    exact ⟨value, middle, rest, hvalue, hrest, rfl⟩
  · rintro ⟨value, middle, rest, hvalue, hrest, rfl⟩
    exact ⟨value, middle, hvalue, rest, after, hrest, rfl, rfl⟩

theorem append_eq_some_iff :
    (slots ++ others).mapM (slotEffect env home source) surface = some (values, after) ↔
      ∃ front middle back, slots.mapM (slotEffect env home source) surface = some (front, middle) ∧
        others.mapM (slotEffect env home source) middle = some (back, after) ∧
          values = front ++ back := by
  simp only [List.mapM_append, Effect.bind_eq_some_iff, Effect.pure_eq_some_iff]
  constructor
  · rintro ⟨front, middle, hfront, back, last, hback, rfl, rfl⟩
    exact ⟨front, middle, back, hfront, hback, rfl⟩
  · rintro ⟨front, middle, back, hfront, hback, rfl⟩
    exact ⟨front, middle, hfront, back, after, hback, rfl, rfl⟩

theorem length_eq_of_slots
    (h : slots.mapM (slotEffect env home source) surface = some (values, after)) :
    values.length = slots.length := by
  induction slots generalizing surface values with
  | nil =>
    cases h
    rfl
  | cons slot rest ih =>
    obtain ⟨value, middle, found, _, hrest, rfl⟩ := slots_eq_some_iff.1 h
    rw [List.length_cons, List.length_cons, ih hrest]

theorem slots_preserve {usual : Surface → Prop}
    (preserves : ∀ operand, some operand ∈ slots →
      (operand.effect env home source).Preserves usual) :
    Effect.Preserves usual (slots.mapM (slotEffect env home source)) := by
  intro surface husual values after h
  induction slots generalizing surface values with
  | nil =>
    cases h
    exact husual
  | cons slot rest ih =>
    obtain ⟨value, middle, found, hslot, hrest, rfl⟩ := slots_eq_some_iff.1 h
    cases slot with
    | none => cases hslot
    | some operand =>
      have hmiddle := preserves operand List.mem_cons_self surface husual value middle hslot
      have hlater := fun other hother => preserves other (List.mem_cons_of_mem _ hother)
      exact ih hlater middle hmiddle found hrest

end Slots

/-! ### Nests -/

theorem effect_eq_operands (plain : env.Plain home) {body : Body} {slots : List (Option Tree)}
    (standard : (Tree.node body slots).all Body.isStandard = true) (hkind : body.kind = op.kind) :
    (Tree.node body slots).effect env home source =
      slots.mapM (slotEffect env home source) >>= combined op := by
  rw [all, Bool.and_eq_true] at standard
  cases Body.eq_arithmetic_of_kind standard.1 hkind
  exact effect_arithmetic plain standard.2 source

theorem effect_flattened (plain : env.Plain home) {tree : Tree}
    (standard : tree.all Body.isStandard = true) (hkind : tree.kind = op.kind) :
    (tree.flattened op.kind).effect env home source =
      (tree.operands op.kind).mapM (slotEffect env home source) >>= combined op := by
  have standard' := all_flattened standard op.kind
  obtain ⟨body, slots⟩ := tree
  have hbody : body.kind = op.kind := hkind
  rw [flattened_of_eq hbody] at standard' ⊢
  exact effect_eq_operands plain standard' hbody

theorem combined_singleton (operand : Tree) :
    ([some operand].mapM (slotEffect env home source) >>= combined op) surface =
      operand.effect env home source surface := by
  apply Option.ext
  rintro ⟨value, after⟩
  simp only [Effect.bind_eq_some_iff, slots_eq_some_iff, combined_eq_some_iff]
  constructor
  · rintro ⟨_, _, ⟨found, middle, _, hfound, hrest, rfl⟩, _, _, ⟨⟩, hfold, rfl⟩
    cases hrest
    cases hfold
    exact hfound
  · intro h
    exact ⟨[value], after, ⟨value, after, [], h, rfl, rfl⟩, value, [], rfl, rfl, rfl⟩

section Nest
variable (plain : env.Plain home) {usual : Surface → Prop} {objects : Array Record}
  (hobjects : ∀ surface, usual surface → surface.heap.objects = objects)
include hobjects

/-- The values that the front gives may be combined before the others are there. -/
theorem combined_nested (op : Operation) {front back : Effect (List Value)}
    (hfront : front.Preserves usual) (hback : back.Preserves usual) (husual : usual surface)
    (hne : ∀ values middle, front surface = some (values, middle) → values ≠ []) :
    ((front >>= combined op) >>= fun found => back >>= fun others => combined op (found :: others))
        surface =
      (front >>= fun values => back >>= fun others => combined op (values ++ others)) surface := by
  apply Option.ext
  rintro ⟨value, after⟩
  have hfold : ∀ first rest others middle, front surface = some (first :: rest, middle) →
      back middle = some (others, after) →
        (Body.fold op after.heap first (rest ++ others) = .ok value ↔
          ∃ found, Body.fold op middle.heap first rest = .ok found ∧
            Body.fold op after.heap found others = .ok value) := by
    intro first rest others middle hvalues hothers
    have hmiddle := hfront surface husual _ middle hvalues
    have hafter := hback middle hmiddle others after hothers
    have hsame : after.heap.objects = middle.heap.objects :=
      (hobjects after hafter).trans (hobjects middle hmiddle).symm
    rw [Body.fold_append, bind_eq_ok_iff, Body.fold_of_objects_eq op hsame]
  simp only [Effect.bind_eq_some_iff, combined_eq_some_iff]
  constructor
  · rintro ⟨found, _, ⟨_, middle, hvalues, first, rest, rfl, hfound, rfl⟩, others, _, hothers, _, _,
      ⟨⟩, hvalue, rfl⟩
    exact ⟨first :: rest, _, hvalues, others, after, hothers, first, rest ++ others, rfl,
      (hfold first rest others _ hvalues hothers).2 ⟨found, hfound, hvalue⟩, rfl⟩
  · rintro ⟨values, middle, hvalues, others, _, hothers, first, rest, heq, hvalue, rfl⟩
    obtain ⟨first, rest, rfl⟩ := List.exists_cons_of_ne_nil (hne values middle hvalues)
    cases heq
    obtain ⟨found, hfound, hvalue⟩ := (hfold first _ others middle hvalues hothers).1 hvalue
    exact ⟨found, middle, ⟨_, middle, hvalues, first, _, rfl, hfound, rfl⟩, others, after, hothers,
      found, others, rfl, hvalue, rfl⟩

include plain

/-- Where the first slots alone are nested, the operands are combined in the order in which they are
taken. -/
theorem effect_of_leftNested {tree : Tree} (standard : tree.all Body.isStandard = true)
    (filled : tree.nestFilled op.kind = true) (left : tree.leftNested op.kind = true)
    (preserves : ∀ operand, some operand ∈ tree.operands op.kind →
      (operand.effect env home source).Preserves usual)
    (husual : usual surface) :
    tree.effect env home source surface =
      ((tree.operands op.kind).mapM (slotEffect env home source) >>= combined op) surface := by
  match tree with
  | .node body slots =>
    by_cases hkind : body.kind = op.kind
    · obtain ⟨hne, hslots⟩ : slots ≠ [] ∧ nestsFilled op.kind slots = true := by
        simpa [nestFilled, hkind] using filled
      have hleft : slotsLeftNested op.kind slots = true := by
        simpa [leftNested, hkind] using left
      rw [effect_eq_operands plain standard hkind]
      rw [operands_of_eq hkind] at preserves ⊢
      match slots with
      | [] => exact absurd rfl hne
      | none :: rest => rw [flattenedSlots, flattenedSlots_of_lacks hleft]
      | some first :: rest =>
        rw [slotsLeftNested, Bool.and_eq_true] at hleft
        rw [nestsFilled, Bool.and_eq_true] at hslots
        rw [all, slotsAll, Bool.and_eq_true, Bool.and_eq_true] at standard
        rw [flattenedSlots_cons, flattenedSlots_of_lacks hleft.2] at preserves ⊢
        have hfront : ∀ operand, some operand ∈ first.operands op.kind →
            (operand.effect env home source).Preserves usual :=
          fun operand hoperand => preserves operand (List.mem_append_left _ hoperand)
        have hback : ∀ operand, some operand ∈ rest →
            (operand.effect env home source).Preserves usual :=
          fun operand hoperand => preserves operand (List.mem_append_right _ hoperand)
        have ih := effect_of_leftNested standard.2.1 hslots.1 hleft.1 hfront husual
        -- A nested operation has operands, and so a first value to go on from.
        have hvalues : ∀ values middle,
            (first.operands op.kind).mapM (slotEffect env home source) surface =
              some (values, middle) → values ≠ [] := by
          rintro _ middle hvalues rfl
          have hlength := length_eq_of_slots hvalues
          exact operands_ne_nil hslots.1 (List.length_eq_zero_iff.1 hlength.symm)
        have hnested := combined_nested hobjects op (slots_preserve hfront) (slots_preserve hback)
          husual hvalues
        simp only [List.mapM_cons, List.mapM_append, bind_assoc, pure_bind]
        rw [← hnested]
        exact Effect.bind_congr ih _
    · have htree : (Tree.node body slots).kind ≠ op.kind := hkind
      rw [operands_of_ne htree, combined_singleton]

end Nest

section Ints
variable (flattens : (Body.arithmetic op).flattens = true) {usual : Surface → Prop}
include flattens

mutual

/-- The operands of a nest that gives a value are integers, and it is their exact sum or product. -/
theorem total_of_effect (plain : env.Plain home) {tree : Tree}
    (standard : tree.all Body.isStandard = true)
    (preserves : ∀ operand, some operand ∈ tree.operands op.kind →
      (operand.effect env home source).Preserves usual)
    (ints : ∀ operand, some operand ∈ tree.operands op.kind →
      (operand.effect env home source).GivesInts usual)
    {surface after : Surface} (husual : usual surface) {value : Value}
    (h : tree.effect env home source surface = some (value, after)) :
    ∃ (ns : List Int64) (n : Int64),
      (tree.operands op.kind).mapM (slotEffect env home source) surface =
        some (ns.map Value.int, after) ∧
      value = .int n ∧ n.toInt = op.total (ns.map Int64.toInt) := by
  match tree with
  | .node body slots =>
    by_cases hkind : body.kind = op.kind
    · rw [operands_of_eq hkind] at preserves ints ⊢
      rw [effect_eq_operands plain standard hkind] at h
      rw [all, Bool.and_eq_true] at standard
      obtain ⟨values, last, hvalues, hcombined⟩ := Effect.bind_eq_some_iff.1 h
      obtain ⟨first, rest, rfl, hfold, rfl⟩ := combined_eq_some_iff.1 hcombined
      obtain ⟨ns, ms, hns, hms, htotal⟩ :=
        totals_of_slots plain standard.2 preserves ints husual hvalues
      obtain ⟨m, ms, rfl⟩ := List.exists_cons_of_ne_nil (show ms ≠ [] by rintro rfl; cases hms)
      cases hms
      obtain ⟨n, rfl, hn⟩ := Body.total_of_fold flattens hfold
      exact ⟨ns, n, hns, rfl, hn.trans htotal⟩
    · have htree : (Tree.node body slots).kind ≠ op.kind := hkind
      rw [operands_of_ne htree] at preserves ints ⊢
      obtain ⟨n, rfl⟩ := ints _ List.mem_cons_self surface husual value after h
      refine ⟨[n], n, slots_eq_some_iff.2 ⟨.int n, after, [], h, rfl, rfl⟩, rfl, ?_⟩
      exact (op.total_singleton n.toInt).symm

theorem totals_of_slots (plain : env.Plain home) {slots : List (Option Tree)}
    (standard : slotsAll Body.isStandard slots = true)
    (preserves : ∀ operand, some operand ∈ flattenedSlots op.kind slots →
      (operand.effect env home source).Preserves usual)
    (ints : ∀ operand, some operand ∈ flattenedSlots op.kind slots →
      (operand.effect env home source).GivesInts usual)
    {surface after : Surface} (husual : usual surface) {values : List Value}
    (h : slots.mapM (slotEffect env home source) surface = some (values, after)) :
    ∃ ns ms : List Int64,
      (flattenedSlots op.kind slots).mapM (slotEffect env home source) surface =
        some (ns.map Value.int, after) ∧
      values = ms.map Value.int ∧
        op.total (ms.map Int64.toInt) = op.total (ns.map Int64.toInt) := by
  match slots with
  | [] =>
    cases h
    exact ⟨[], [], rfl, rfl, rfl⟩
  | none :: rest =>
    obtain ⟨value, middle, found, hslot, _⟩ := slots_eq_some_iff.1 h
    cases hslot
  | some child :: rest =>
    obtain ⟨value, middle, found, hchild, hrest, rfl⟩ := slots_eq_some_iff.1 h
    rw [slotsAll, Bool.and_eq_true] at standard
    rw [flattenedSlots_cons] at preserves ints ⊢
    have hfront : ∀ operand, some operand ∈ child.operands op.kind →
        (operand.effect env home source).Preserves usual :=
      fun operand hoperand => preserves operand (List.mem_append_left _ hoperand)
    obtain ⟨ns, n, hns, rfl, hn⟩ := total_of_effect plain standard.1 hfront
      (fun operand hoperand => ints operand (List.mem_append_left _ hoperand)) husual hchild
    have hmiddle := slots_preserve hfront surface husual _ middle hns
    obtain ⟨ks, ms, hks, rfl, htotal⟩ := totals_of_slots plain standard.2
      (fun operand hoperand => preserves operand (List.mem_append_right _ hoperand))
      (fun operand hoperand => ints operand (List.mem_append_right _ hoperand)) hmiddle hrest
    refine ⟨ns ++ ks, n :: ms, ?_, rfl, ?_⟩
    · rw [List.map_append]
      exact append_eq_some_iff.2 ⟨_, middle, _, hns, hks, rfl⟩
    · rw [List.map_cons, List.map_append, Operation.total_cons flattens,
        Operation.total_append flattens, hn, htotal]

end

end Ints

end Tree

/-! ### Gets -/

def Handle.Gives (handle : Handle) (source : Value) (world : World) (value : Value) : Prop :=
  (handle.get source world).1 = .ok (.ok value)

/-- The same objects and the same settings. The rest of what is outside may differ. -/
def Surface.Like (surface other : Surface) : Prop :=
  other.heap.objects = surface.heap.objects ∧ other.settings = surface.settings

/-- Nothing is known of the tree; objects and settings are those of the surface. -/
structure World.Beside (surface : Surface) (home : TreeId) (world : World) : Prop where
  like : surface.Like world.surface
  blank : ∀ id, world.constants.cell home id = {}

namespace Tree
variable {env : Env} {home : TreeId} {source : Value} {surface : Surface}

/-- Evaluated on its own, the operand leaves the objects as they are. -/
def Steady (env : Env) (home : TreeId) (source : Value) (surface : Surface) (operand : Tree) :
    Prop :=
  ∀ world : World, world.Beside surface home →
    ((operand.entrance env home).get source world).2.heap.objects = surface.heap.objects

/-- Evaluated on its own, the operand gives nothing but integers. -/
def Integral (env : Env) (home : TreeId) (source : Value) (surface : Surface) (operand : Tree) :
    Prop :=
  ∀ world : World, world.Beside surface home → ∀ value,
    (operand.entrance env home).Gives source world value → ∃ n, value = .int n

/-- The constants with which a get gives what it gives without, up to `same`: nothing is known of
the tree, or any history has led to them. -/
inductive Ready (env : Env) (home : TreeId) (tree : Tree) :
    (Value → Value → Prop) → Constants → Prop where
  | blank {constants : Constants} (h : ∀ id, constants.cell home id = {}) :
      Ready env home tree Eq constants
  | reached {constants : Constants} (reference : tree.isReference = true)
      (respects : ∀ registry ∈ env.gateway, registry.Respects)
      (reached : tree.Reaches home constants) : Ready env home tree Value.Same constants

section Gets
variable (plain : env.Plain home) {tree : Tree} (standard : tree.all Body.isStandard = true)
  {world : World}
include plain standard

/-- The first get of a tree has its effect. -/
theorem success_of_blank (blank : ∀ id, world.constants.cell home id = {}) :
    ((tree.entrance env home).get source).success world =
      tree.effect env home source world.surface := by
  have huntouched : world.constants.Untouched home (fun _ => False) 0 :=
    ⟨fun id _ => blank id, fun _ hfalse => hfalse.elim⟩
  rw [entrance_eq_handle plain]
  exact (first_get plain standard (fun _ hfalse => hfalse.elim) source).success_eq rfl huntouched

/-- A get that succeeds has the effect of the tree, and none fails in vain. -/
theorem Ready.get {same : Value → Value → Prop}
    (ready : tree.Ready env home same world.constants) (value : Value) :
    ((tree.entrance env home).Gives source world value →
      ∃ found after, tree.effect env home source world.surface = some (found, after) ∧
        same value found) ∧
    ∀ after, tree.effect env home source world.surface = some (value, after) →
      ∃ found, (tree.entrance env home).Gives source world found ∧ same found value := by
  unfold Handle.Gives
  generalize hconstants : world.constants = constants at ready
  cases ready with
  | blank blank =>
    subst hconstants
    have hsuccess : ((tree.entrance env home).get source).success world =
        tree.effect env home source world.surface := success_of_blank plain standard blank
    constructor
    · intro h
      rw [← hsuccess]
      exact ⟨value, _, Eval.success_eq_some_iff.2 ⟨h, rfl⟩, rfl⟩
    · intro after h
      rw [← hsuccess] at h
      exact ⟨value, (Eval.success_eq_some_iff.1 h).1, rfl⟩
  | reached reference respects reached =>
    subst hconstants
    -- What has been kept is right, so the get comes to what it would without constants.
    have hagrees := handle_agrees .root reference plain respects
    obtain ⟨answer, answer', last, last', hget, hget', halike, _⟩ :=
      hagrees.get source source rfl world world.surface.world (reached.correct reference) rfl
    rw [entrance_eq_handle plain, hget]
    cases halike with
    | error error =>
      refine ⟨fun h => (by cases h), fun after h => ?_⟩
      obtain ⟨houtcome, _⟩ := Eval.success_eq_some_iff.1 h
      rw [hget'] at houtcome
      cases houtcome
    | @ok found found' hsame =>
      constructor
      · rintro ⟨⟩
        exact ⟨found', last'.surface, Eval.success_eq_some_iff.2 (by rw [hget']; exact ⟨rfl, rfl⟩),
          hsame⟩
      · intro after h
        obtain ⟨houtcome, _⟩ := Eval.success_eq_some_iff.1 h
        rw [hget'] at houtcome
        cases houtcome
        exact ⟨found, rfl, hsame⟩

end Gets

theorem Steady.preserves (plain : env.Plain home) {operand : Tree}
    (standard : operand.all Body.isStandard = true)
    (steady : operand.Steady env home source surface) :
    (operand.effect env home source).Preserves surface.Like := by
  intro before hbefore value after h
  have hsettings := settings_of_effect plain standard h
  have hsuccess : ((operand.entrance env home).get source).success before.world =
      operand.effect env home source before := success_of_blank plain standard fun _ => rfl
  rw [← hsuccess] at h
  obtain ⟨_, hafter⟩ := Eval.success_eq_some_iff.1 h
  have hobjects := steady before.world ⟨hbefore, fun _ => rfl⟩
  refine ⟨?_, hsettings.trans hbefore.2⟩
  rw [← hafter]
  exact hobjects

theorem Integral.givesInts (plain : env.Plain home) {operand : Tree}
    (standard : operand.all Body.isStandard = true)
    (integral : operand.Integral env home source surface) :
    (operand.effect env home source).GivesInts surface.Like := by
  intro before hbefore value after h
  have hsuccess : ((operand.entrance env home).get source).success before.world =
      operand.effect env home source before := success_of_blank plain standard fun _ => rfl
  rw [← hsuccess] at h
  exact integral before.world ⟨hbefore, fun _ => rfl⟩ value
    (Eval.success_eq_some_iff.1 h).1

theorem Ready.equivalence {tree : Tree} {same : Value → Value → Prop} {constants : Constants}
    (ready : tree.Ready env home same constants) : Equivalence same := by
  cases ready with
  | blank => exact ⟨fun _ => rfl, Eq.symm, Eq.trans⟩
  | reached => exact Value.same_equivalence

theorem Ready.eq_int {tree : Tree} {same : Value → Value → Prop} {constants : Constants}
    (ready : tree.Ready env home same constants) {value : Value} {n : Int64}
    (h : same value (.int n)) : value = .int n := by
  cases ready with
  | blank => exact h
  | reached =>
    rw [Value.Same] at h
    cases value <;> simp at h
    rw [h]

/-! ### Operands that are steady, and operands that are integers -/

theorem settles_of_isPassive (plain : env.Plain home) {id : NodeId} {tree : Tree}
    (passive : tree.all Body.isPassive = true) (objects : Array Record) (source : Value) :
    ((tree.handle env home id).get source).Settles objects (fun _ => True) fun _ => True := by
  induction id, tree using child_induction generalizing source with
  | node id body slots ih =>
    have standard := all_imp Body.isStandard_of_isPassive passive
    have answers := ask_constant_of_standard standard env home id
    rw [all, Bool.and_eq_true] at passive
    rw [handle_get (Engine.substitute?_eq_none plain id body)]
    apply Eval.Settles.traced
    apply Eval.Settles.visiting
    apply Eval.Settles.cached (fun _ _ _ _ => trivial) answers (fun _ _ => trivial)
      (fun _ _ _ _ _ => trivial)
    have hreach : ∀ index source, True →
        ((Engine.reach body.kind (child env home (id + 1) slots) index).get source).Settles objects
          (fun _ => True) fun outcome => ∀ value, outcome = .ok value → True := by
      intro index source _
      apply settles_reach fun _ _ _ => trivial
      intro entry hentry
      exact (ih index entry hentry (all_child passive.2 hentry) source).mono fun _ _ _ _ => trivial
    have inherited : Inherited objects fun _ => True :=
      ⟨fun _ _ => trivial, fun _ _ => trivial, fun _ => trivial, fun _ => trivial⟩
    apply Eval.Settles.mono
    · exact Body.settles_read hreach inherited passive.1 (fun _ _ => trivial) _ trivial
    · intro outcome _
      trivial

theorem steady_of_isPassive (plain : env.Plain home) {operand : Tree}
    (passive : operand.all Body.isPassive = true) : operand.Steady env home source surface := by
  intro world beside
  obtain ⟨_, _, hget, _, hobjects, _⟩ :=
    settles_of_isPassive plain passive _ source world beside.like.1 trivial
  rw [entrance_eq_handle plain, hget]
  exact hobjects

theorem integral_of_effect (plain : env.Plain home) {operand : Tree}
    (standard : operand.all Body.isStandard = true)
    (ints : (operand.effect env home source).GivesInts surface.Like) :
    operand.Integral env home source surface := by
  intro world beside value h
  have hsuccess : ((operand.entrance env home).get source).success world =
      operand.effect env home source world.surface := success_of_blank plain standard beside.blank
  exact ints world.surface beside.like value _
    (hsuccess.symm.trans (Eval.success_eq_some_iff.2 ⟨h, rfl⟩))

theorem integral_const (plain : env.Plain home) (n : Int64) :
    (Tree.node (.const (.int n)) []).Integral env home source surface := by
  apply integral_of_effect plain rfl
  intro other _ value after h
  rw [effect_const plain] at h
  cases h
  exact ⟨n, rfl⟩

theorem integral_property (plain : env.Plain home) {name : String} {o : ObjectId} {n : Int64}
    (hfield : surface.heap.get? o name = some (.int n)) :
    (Tree.node (.property name) []).Integral env home (.object o) surface := by
  apply integral_of_effect plain rfl
  intro other hlike value after h
  simp only [effect_property plain, Heap.get?_eq_of_objects_eq hlike.1, hfield] at h
  cases h
  exact ⟨n, rfl⟩

/-! ### Nests and flat nodes -/

variable {home' : TreeId} {op : Operation} {tree : Tree} {same : Value → Value → Prop}
  {world world' : World}

/-- Take a nest of sums, or of products, whose operands leave the objects as they are. If only first
operands are nested, then it has a value if and only if the flat sum of all operands has one, and it
is this value. However the operands are nested, if all are integers then the nest and the flat sum
give one integer, where both give any. -/
theorem flattened_agrees (flattens : (Body.arithmetic op).flattens = true)
    (hkind : tree.kind = op.kind) (standard : tree.all Body.isStandard = true)
    (filled : tree.nestFilled op.kind = true) (plain : env.Plain home) (plain' : env.Plain home')
    (hsurface : world.surface = world'.surface)
    (steady : ∀ operand, some operand ∈ tree.operands op.kind →
      operand.Steady env home source world.surface)
    (ready : tree.Ready env home same world.constants)
    (ready' : (tree.flattened op.kind).Ready env home' same world'.constants) :
    (tree.leftNested op.kind = true →
      (∀ value, (tree.entrance env home).Gives source world value →
        ∃ value', ((tree.flattened op.kind).entrance env home').Gives source world' value' ∧
          same value value') ∧
      ∀ value', ((tree.flattened op.kind).entrance env home').Gives source world' value' →
        ∃ value, (tree.entrance env home).Gives source world value ∧ same value value') ∧
    ((∀ operand, some operand ∈ tree.operands op.kind →
        operand.Integral env home source world.surface) →
      ∀ value value', (tree.entrance env home).Gives source world value →
        ((tree.flattened op.kind).entrance env home').Gives source world' value' →
          ∃ n, value = .int n ∧ value' = .int n) := by
  have standard' := all_flattened standard op.kind
  have hoperands := slotsAll_operands standard op.kind
  have hpreserves : ∀ operand, some operand ∈ tree.operands op.kind →
      (operand.effect env home source).Preserves world.surface.Like := fun operand hoperand =>
    (steady operand hoperand).preserves plain (all_of_mem_slots hoperands hoperand)
  have hflat : (tree.flattened op.kind).effect env home' source world'.surface =
      ((tree.operands op.kind).mapM (slotEffect env home source) >>= combined op)
        world.surface := by
    rw [← hsurface, effect_eq_of_plain plain' plain standard',
      effect_flattened plain standard hkind]
  constructor
  · intro left
    have heffect := effect_of_leftNested plain (fun _ h => And.left h) standard filled left
      hpreserves ⟨rfl, rfl⟩
    rw [← hflat] at heffect
    constructor
    · intro value h
      obtain ⟨found, after, hfound, hsame⟩ := (ready.get plain standard value).1 h
      rw [heffect] at hfound
      obtain ⟨value', h', hsame'⟩ := (ready'.get plain' standard' found).2 after hfound
      exact ⟨value', h', ready.equivalence.trans hsame (ready.equivalence.symm hsame')⟩
    · intro value' h'
      obtain ⟨found, after, hfound, hsame'⟩ := (ready'.get plain' standard' value').1 h'
      rw [← heffect] at hfound
      obtain ⟨value, h, hsame⟩ := (ready.get plain standard found).2 after hfound
      exact ⟨value, h, ready.equivalence.trans hsame (ready.equivalence.symm hsame')⟩
  · intro integral value value' h h'
    obtain ⟨found, after, hfound, hsame⟩ := (ready.get plain standard value).1 h
    obtain ⟨found', after', hfound', hsame'⟩ := (ready'.get plain' standard' value').1 h'
    have hints : ∀ operand, some operand ∈ tree.operands op.kind →
        (operand.effect env home source).GivesInts world.surface.Like :=
      fun operand hoperand =>
        (integral operand hoperand).givesInts plain (all_of_mem_slots hoperands hoperand)
    obtain ⟨ns, n, hns, rfl, hn⟩ :=
      total_of_effect flattens plain standard hpreserves hints ⟨rfl, rfl⟩ hfound
    rw [hflat] at hfound'
    obtain ⟨values, last, hvalues, hcombined⟩ := Effect.bind_eq_some_iff.1 hfound'
    rw [hns] at hvalues
    cases hvalues
    obtain ⟨first, rest, hvalues, hfold, rfl⟩ := combined_eq_some_iff.1 hcombined
    obtain ⟨m, ms, rfl⟩ := List.exists_cons_of_ne_nil
      (show ns ≠ [] by rintro rfl; cases hvalues)
    cases hvalues
    obtain ⟨n', rfl, hn'⟩ := Body.total_of_fold flattens hfold
    cases Int64.toInt_inj.1 (hn.trans hn'.symm)
    exact ⟨n, ready.eq_int hsame, ready'.eq_int hsame'⟩

def nestedSum : Tree :=
  .node (.arithmetic .add)
    [some (.node (.arithmetic .add)
      [some (.node (.property "x") []), some (.node (.const (.int 2)) [])]),
      some (.node (.const (.int 3)) [])]

example : nestedSum.flattened .add =
    .node (.arithmetic .add) [some (.node (.property "x") []), some (.node (.const (.int 2)) []),
      some (.node (.const (.int 3)) [])] := rfl

theorem nestedSum_agrees :
    (nestedSum.entrance {} 0).Gives (.object 1) .shared (.int 6) ∧
      ((nestedSum.flattened .add).entrance {} 0).Gives (.object 1) .shared (.int 6) ∧
      ∀ value, ((nestedSum.flattened .add).entrance {} 0).Gives (.object 1) .shared value →
        value = .int 6 := by
  have plain : Env.Plain {} 0 := fun _ => rfl
  have hgives : (nestedSum.entrance {} 0).Gives (.object 1) .shared (.int 6) := rfl
  have hpassive : slotsAll Body.isPassive (nestedSum.operands .add) = true := by decide
  have hsteady : ∀ operand, some operand ∈ nestedSum.operands .add →
      operand.Steady {} 0 (.object 1) World.shared.surface :=
    fun operand hoperand => steady_of_isPassive plain (all_of_mem_slots hpassive hoperand)
  have hintegral : ∀ operand, some operand ∈ nestedSum.operands .add →
      operand.Integral {} 0 (.object 1) World.shared.surface := by
    intro operand hoperand
    rcases hoperand with _ | ⟨_, _ | ⟨_, _ | ⟨_, ⟨⟩⟩⟩⟩
    · exact integral_property plain rfl
    · exact integral_const plain 2
    · exact integral_const plain 3
  have ready : ∀ tree : Tree, tree.Ready {} 0 Eq World.shared.constants :=
    fun tree => .blank fun _ => rfl
  have hagrees := @flattened_agrees {} 0 (.object 1) 0 .add nestedSum Eq .shared .shared rfl rfl
    (by decide) (by decide) plain plain rfl hsteady (ready _) (ready _)
  obtain ⟨value', hgives', rfl⟩ := (hagrees.1 (by decide)).1 (.int 6) hgives
  refine ⟨hgives, hgives', fun value h => ?_⟩
  obtain ⟨n, heq, rfl⟩ := hagrees.2 hintegral _ value hgives h
  exact heq.symm

def textAndSum : Tree :=
  .node (.arithmetic .add)
    [some (.node (.const (.string "a")) []),
      some (.node (.arithmetic .add)
        [some (.node (.const (.int 1)) []), some (.node (.const (.int 2)) [])])]

example : (textAndSum.entrance {} 0).Gives .null {} (.string "a3") ∧
    ((textAndSum.flattened .add).entrance {} 0).Gives .null {} (.string "a12") := by
  constructor <;> rfl

end Tree

end ObjectNavigation
