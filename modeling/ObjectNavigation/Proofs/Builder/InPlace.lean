import ObjectNavigation.Proofs.Builder.Links

/-!
Calls that change a builder in place. A call that fails leaves the builder as it is at that moment,
whatever it has changed by then; closing a node, for one, marks it before it splices. The calls lead
through the builders of `Builder.after` nonetheless (`after_inPlace`): what can refuse a call comes
before its first change, but for the count check of the splicing, and that never fails.
-/

namespace ObjectNavigation
namespace Builder

/-- A computation on a builder. Where it fails the builder keeps what was changed before. -/
abbrev InPlace (α : Type) := ExceptT BuildError (StateM Builder) α

namespace InPlace
variable {α β : Type}

def on (act : InPlace α) (builder : Builder) : Except BuildError α × Builder :=
  act.run.run builder

def slot (id : NodeId) : InPlace Slot := do
  match (← get).slot? id with
  | some slot => return slot
  | none => throw (.unknownNode id)

def change (id : NodeId) (update : Slot → Slot) : InPlace Unit := do
  set ((← get).modify id update)

def node (body : Body) : InPlace NodeId :=
  modifyGet (·.node body)

def «open» (id : NodeId) : InPlace Unit := do
  match (← slot id).stage with
  | .closed => throw (.alreadyClosed id)
  | _ => change id fun slot => { slot with stage := .opened }

def attach (parent child : NodeId) (index : Nat) : InPlace Unit := do
  if parent = child then throw (.selfReference parent)
  let holder ← slot parent
  if holder.stage ≠ .opened then throw (.notOpen parent)
  if let some existing := (← slot child).parent then throw (.alreadyAttached child existing)
  change parent fun slot => { slot with children := place child index slot.children }
  (holder.children[index]?).join.toList.forM fun displaced =>
    change displaced fun slot => { slot with parent := none }
  change child fun slot => { slot with parent := some parent }

def flatten (id : NodeId) : InPlace Unit := do
  let slot ← slot id
  let builder ← get
  let absorbed := slot.children.filterMap (builder.absorbed? slot.kind)
  if absorbed.isEmpty then return
  let rebuilt := slot.children.flatMap (builder.expansion slot.kind)
  let expected := builder.expandedLength slot.kind slot.children
  if rebuilt.length ≠ expected then throw (.inconsistent id expected rebuilt.length)
  absorbed.forM fun inner => change inner fun slot => { slot with children := [], parent := none }
  (rebuilt.filterMap fun s => s).forM fun moved =>
    change moved fun slot => { slot with parent := some id }
  change id fun slot => { slot with children := rebuilt }

def close (id : NodeId) : InPlace Unit := do
  let slot ← slot id
  match slot.stage with
  | .opened => change id fun slot => { slot with stage := .closed }
  | .closed => throw (.alreadyClosed id)
  | .created => throw (.notOpen id)
  if slot.body.flattens then flatten id

def leaf (body : Body) : InPlace NodeId := do
  let id ← node body
  «open» id
  close id
  return id

/-! ### Running -/

@[simp] theorem on_pure (value : α) (builder : Builder) :
    (pure value : InPlace α).on builder = (.ok value, builder) := rfl

@[simp] theorem on_throw (error : BuildError) (builder : Builder) :
    (throw error : InPlace α).on builder = (.error error, builder) := rfl

@[simp] theorem on_get (builder : Builder) :
    (get : InPlace Builder).on builder = (.ok builder, builder) := rfl

@[simp] theorem on_bind (act : InPlace α) (next : α → InPlace β) (builder : Builder) :
    (act >>= next).on builder = match act.on builder with
      | (.ok value, after) => (next value).on after
      | (.error error, after) => (.error error, after) := by
  show StateT.run (ExceptT.bindCont next (act.on builder).1) (act.on builder).2 = _
  rcases act.on builder with ⟨error | value, after⟩ <;> rfl

@[simp] theorem on_change (id : NodeId) (update : Slot → Slot) (builder : Builder) :
    (change id update).on builder = (.ok (), builder.modify id update) := rfl

@[simp] theorem on_node (body : Body) (builder : Builder) :
    (node body).on builder = (.ok builder.slots.size, (builder.node body).2) := rfl

@[simp] theorem on_forM_change (ids : List NodeId) (update : Slot → Slot) (builder : Builder) :
    (forM ids fun id => change id update).on builder = (.ok (), builder.modifyAll ids update) := by
  induction ids generalizing builder with
  | nil => rfl
  | cons id rest ih => exact ih (builder.modify id update)

theorem on_slot (id : NodeId) (builder : Builder) :
    (slot id).on builder = match builder.slot? id with
      | some slot => (.ok slot, builder)
      | none => (.error (.unknownNode id), builder) := by
  simp only [slot, on_bind, on_get]
  split <;> rfl

def settle (builder : Builder) : Except BuildError Builder → Except BuildError Unit × Builder
  | .ok built => (.ok (), built)
  | .error error => (.error error, builder)

theorem on_open (id : NodeId) (builder : Builder) :
    («open» id).on builder = settle builder (builder.open id) := by
  rw [«open», on_bind, on_slot, Builder.open]
  cases builder.slot? id with
  | none => rfl
  | some slot => cases hstage : slot.stage <;> simp [hstage, settle]

theorem on_attach (parent child : NodeId) (index : Nat) (builder : Builder) :
    (attach parent child index).on builder =
      settle builder (builder.attach parent child index) := by
  rw [attach, Builder.attach]
  split
  next => simp [settle]
  next =>
    simp only [on_bind, on_slot]
    cases builder.slot? parent with
    | none => simp [settle]
    | some holder =>
      by_cases hstage : holder.stage = .opened
      · cases hchild : builder.slot? child with
        | none => simp [hstage, on_slot, hchild, settle]
        | some held =>
          cases hparent : held.parent with
          | some existing => simp [hstage, on_slot, hchild, hparent, settle]
          | none => simp [hstage, on_slot, hchild, hparent, settle]
      · simp [hstage, settle]

/-- The count check, which would leave a closed node with its old slots, does not fail. -/
theorem on_flatten (id : NodeId) (builder : Builder) :
    (flatten id).on builder = settle builder (builder.flatten id) := by
  rw [flatten, Builder.flatten, on_bind, on_slot]
  cases builder.slot? id with
  | none => rfl
  | some slot =>
    have hcount : (slot.children.flatMap (builder.expansion slot.kind)).length =
        builder.expandedLength slot.kind slot.children := length_spliced builder _ _
    simp only [on_bind, on_get]
    generalize slot.children.filterMap (builder.absorbed? slot.kind) = absorbed
    generalize slot.children.flatMap (builder.expansion slot.kind) = rebuilt at hcount
    by_cases hnone : absorbed = [] <;> simp [hnone, hcount, settle]

theorem exists_flatten {builder : Builder} {id : NodeId} {slot : Slot}
    (h : builder.slot? id = some slot) (update : Slot → Slot) :
    ∃ built, (builder.modify id update).flatten id = .ok built := by
  have hslot : (builder.modify id update).slot? id = some (update slot) := by
    rw [slot?_modify, if_pos rfl, h]
    rfl
  rw [flatten_eq hslot]
  split <;> exact ⟨_, rfl⟩

theorem on_close (id : NodeId) (builder : Builder) :
    (close id).on builder = settle builder (builder.close id) := by
  rw [close, Builder.close, on_bind, on_slot]
  cases hslot : builder.slot? id with
  | none => rfl
  | some slot =>
    cases hstage : slot.stage with
    | created | closed => simp [hstage, settle]
    | opened =>
      by_cases hflattens : slot.body.flattens
      · obtain ⟨built, hbuilt⟩ := exists_flatten hslot fun slot => { slot with stage := .closed }
        simp [hstage, hflattens, on_flatten, hbuilt, settle]
      · simp [hstage, hflattens, settle]

theorem on_leaf (body : Body) (builder : Builder) :
    ∃ built, builder.leaf body = .ok (builder.slots.size, built) ∧
      (leaf body).on builder = (.ok builder.slots.size, built) := by
  have hslot : (builder.node body).2.slot? builder.slots.size = some { body } := by
    rw [slot?_node, if_pos rfl]
  obtain ⟨opened, hopen, hopened⟩ : ∃ opened, (builder.node body).2.open builder.slots.size =
      .ok opened ∧ opened.slot? builder.slots.size = some { body, stage := .opened } := by
    refine ⟨_, by simp only [Builder.open, hslot]; rfl, ?_⟩
    rw [slot?_modify, if_pos rfl, hslot]
    rfl
  obtain ⟨built, hclose⟩ : ∃ built, opened.close builder.slots.size = .ok built := by
    simp only [Builder.close, hopened]
    split
    next => exact exists_flatten hopened _
    next => exact ⟨_, rfl⟩
  refine ⟨built, ?_, ?_⟩
  · show (builder.node body).2.open builder.slots.size >>= _ = _
    rw [hopen]
    show opened.close builder.slots.size >>= _ = _
    rw [hclose]
    rfl
  · simp only [leaf, on_bind, on_node, on_open, hopen, settle, on_close, hclose, on_pure]

end InPlace

/-! ### Calls -/

def Step.inPlace : Step → InPlace (Option NodeId)
  | .node body => do return some (← InPlace.node body)
  | .leaf body => do return some (← InPlace.leaf body)
  | .open id => do
    InPlace.open id
    return none
  | .attach parent child index => do
    InPlace.attach parent child index
    return none
  | .close id => do
    InPlace.close id
    return none

inductive Refusal : Step → BuildError → Prop
  | unknownOpened (id : NodeId) : Refusal (.open id) (.unknownNode id)
  | reopened (id : NodeId) : Refusal (.open id) (.alreadyClosed id)
  | itself (id : NodeId) (index : Nat) : Refusal (.attach id id index) (.selfReference id)
  | unknownParent (parent child : NodeId) (index : Nat) :
    Refusal (.attach parent child index) (.unknownNode parent)
  | unopenedParent (parent child : NodeId) (index : Nat) :
    Refusal (.attach parent child index) (.notOpen parent)
  | unknownChild (parent child : NodeId) (index : Nat) :
    Refusal (.attach parent child index) (.unknownNode child)
  | attached (parent child existing : NodeId) (index : Nat) :
    Refusal (.attach parent child index) (.alreadyAttached child existing)
  | unknownClosed (id : NodeId) : Refusal (.close id) (.unknownNode id)
  | unopened (id : NodeId) : Refusal (.close id) (.notOpen id)
  | reclosed (id : NodeId) : Refusal (.close id) (.alreadyClosed id)

namespace Refusal
variable {builder : Builder} {error : BuildError}

theorem of_open {id : NodeId} (h : builder.open id = .error error) : Refusal (.open id) error := by
  unfold Builder.open at h
  split at h
  next =>
    cases h
    exact .unknownOpened id
  next =>
    split at h
    · cases h
      exact .reopened id
    · cases h

theorem of_attach {parent child : NodeId} {index : Nat}
    (h : builder.attach parent child index = .error error) :
    Refusal (.attach parent child index) error := by
  unfold Builder.attach at h
  split at h
  next heq =>
    cases h
    subst heq
    exact .itself parent index
  next =>
    split at h
    next =>
      cases h
      exact .unknownParent parent child index
    next =>
      split at h
      next =>
        cases h
        exact .unopenedParent parent child index
      next =>
        split at h
        next =>
          cases h
          exact .unknownChild parent child index
        next =>
          split at h
          next existing _ =>
            cases h
            exact .attached parent child existing index
          next => cases h

theorem of_close {id : NodeId} (h : builder.close id = .error error) :
    Refusal (.close id) error := by
  unfold Builder.close at h
  split at h
  next =>
    cases h
    exact .unknownClosed id
  next slot hslot =>
    split at h
    next =>
      cases h
      exact .reclosed id
    next =>
      cases h
      exact .unopened id
    next =>
      split at h
      next =>
        -- the node is there, and so splicing does not fail
        obtain ⟨built, hbuilt⟩ :=
          InPlace.exists_flatten hslot fun slot => { slot with stage := .closed }
        rw [hbuilt] at h
        cases h
      next => cases h

theorem ne_inconsistent {step : Step} (h : Refusal step error) (node : NodeId)
    (expected actual : Nat) : error ≠ .inconsistent node expected actual := by
  cases h <;> simp

end Refusal

theorem InPlace.on_then_pure {builder : Builder} {outcome : Except BuildError Builder}
    {act : InPlace Unit} (hact : act.on builder = settle builder outcome)
    (result : Option NodeId) :
    (act >>= fun _ => pure result).on builder =
      (outcome.map fun _ => result, outcome.toOption.getD builder) := by
  rw [on_bind, hact]
  cases outcome <;> rfl

theorem InPlace.eq_of_then_pure {builder after : Builder} {outcome : Except BuildError Builder}
    {error : BuildError} {act : InPlace Unit} (hact : act.on builder = settle builder outcome)
    {result : Option NodeId}
    (h : (act >>= fun _ => pure result).on builder = (.error error, after)) :
    after = builder ∧ outcome = .error error := by
  rw [on_then_pure hact] at h
  cases outcome with
  | ok built => cases h
  | error fault =>
    cases h
    exact ⟨rfl, rfl⟩

/-- A call that is refused leaves the builder as it was, for one of the reasons there are. -/
theorem inPlace_eq_error {builder after : Builder} {step : Step} {error : BuildError}
    (h : step.inPlace.on builder = (.error error, after)) :
    after = builder ∧ Refusal step error := by
  cases step with
  | node body => cases h
  | leaf body =>
    obtain ⟨built, _, hleaf⟩ := InPlace.on_leaf body builder
    rw [Step.inPlace, InPlace.on_bind, hleaf] at h
    cases h
  | «open» id =>
    obtain ⟨hafter, hopen⟩ := InPlace.eq_of_then_pure (InPlace.on_open id builder) h
    exact ⟨hafter, .of_open hopen⟩
  | attach parent child index =>
    obtain ⟨hafter, hattach⟩ :=
      InPlace.eq_of_then_pure (InPlace.on_attach parent child index builder) h
    exact ⟨hafter, .of_attach hattach⟩
  | close id =>
    obtain ⟨hafter, hclose⟩ := InPlace.eq_of_then_pure (InPlace.on_close id builder) h
    exact ⟨hafter, .of_close hclose⟩

theorem after_inPlace (step : Step) (builder : Builder) :
    (step.inPlace.on builder).2 = builder.after step := by
  cases step with
  | node body => rfl
  | leaf body =>
    obtain ⟨built, hmade, hleaf⟩ := InPlace.on_leaf body builder
    rw [Step.inPlace, InPlace.on_bind, hleaf, after, hmade]
    rfl
  | «open» id => exact congrArg Prod.snd (InPlace.on_then_pure (InPlace.on_open id builder) none)
  | attach parent child index =>
    exact congrArg Prod.snd
      (InPlace.on_then_pure (InPlace.on_attach parent child index builder) none)
  | close id => exact congrArg Prod.snd (InPlace.on_then_pure (InPlace.on_close id builder) none)

/-- The builder to which calls in place lead, whether they are refused or not. -/
def reached (steps : List Step) : Builder :=
  steps.foldl (fun builder step => (step.inPlace.on builder).2) ∅

theorem reached_eq (steps : List Step) : reached steps = steps.foldl after ∅ := by
  unfold reached
  congr 1
  funext builder step
  exact after_inPlace step builder

/-- Whatever calls there were, one that is refused changes nothing, the refusal is not that the
count check failed, and a leaf is never refused. -/
theorem reached_refused (steps : List Step) :
    (∀ (step : Step) (error : BuildError) (after : Builder),
      step.inPlace.on (reached steps) = (.error error, after) →
        after = reached steps ∧
          ∀ node expected actual, error ≠ .inconsistent node expected actual) ∧
    ∀ body, ∃ id after, (InPlace.leaf body).on (reached steps) = (.ok id, after) := by
  refine ⟨fun step error after h => ?_, fun body => ?_⟩
  · obtain ⟨hafter, hrefusal⟩ := inPlace_eq_error h
    exact ⟨hafter, hrefusal.ne_inconsistent⟩
  · obtain ⟨built, _, hleaf⟩ := InPlace.on_leaf body (reached steps)
    exact ⟨_, built, hleaf⟩

/-- Of two chains in each other's slots, the one that closes first is in a slot of its own. -/
theorem reached_refused_circle :
    let steps : List Step :=
      [.node .chain, .node .chain, .open 0, .open 1, .attach 0 1 0, .attach 1 0 0, .close 0]
    ∃ after, (Step.attach 1 0 3).inPlace.on (reached steps) =
        (.error (.alreadyAttached 0 0), after) ∧ after = reached steps := by
  intro steps
  have h : (Step.attach 1 0 3).inPlace.on (reached steps) =
      (.error (.alreadyAttached 0 0), reached steps) := rfl
  exact ⟨_, h, ((reached_refused steps).1 _ _ _ h).1⟩

end Builder
end ObjectNavigation
