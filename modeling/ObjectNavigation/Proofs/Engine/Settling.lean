import ObjectNavigation.Proofs.Engine.Kept

/-!
Computations that end and leave the graph alone. A computation settles if from every state with
these records and such constants it has an outcome of a certain kind, no misuse cuts it short, the
records are the same afterwards and the constants still such. The lemmas follow the layers of a get
and the steps of those scripts that alter nothing but the number of lists.
-/

namespace ObjectNavigation

def Eval.Settles {α : Type} (objects : Array Record) (property : Constants → Prop)
    (act : Eval α) (result : Except EvalError α → Prop) : Prop :=
  ∀ world, world.heap.objects = objects → property world.constants →
    ∃ outcome after, act world = (.ok outcome, after) ∧ result outcome ∧
      after.heap.objects = objects ∧ property after.constants

/-- The outcomes of items taken one after another: the values of all, or the first failure. -/
inductive Collects (result : Nat → Except EvalError Value → Prop) :
    List Nat → Except EvalError (List Value) → Prop where
  | nil : Collects result [] (.ok [])
  | first {index : Nat} {rest : List Nat} {error : EvalError} (h : result index (.error error)) :
      Collects result (index :: rest) (.error error)
  | later {index : Nat} {rest : List Nat} {value : Value} {error : EvalError}
      (h : result index (.ok value)) (hrest : Collects result rest (.error error)) :
      Collects result (index :: rest) (.error error)
  | cons {index : Nat} {rest : List Nat} {value : Value} {values : List Value}
      (h : result index (.ok value)) (hrest : Collects result rest (.ok values)) :
      Collects result (index :: rest) (.ok (value :: values))

namespace Eval.Settles
variable {α β : Type} {objects : Array Record} {property : Constants → Prop} {act : Eval α}
  {result : Except EvalError α → Prop} {reach : Nat → Handle} {gateway : Option Registry}

theorem mono {result' : Except EvalError α → Prop} (h : act.Settles objects property result)
    (himp : ∀ outcome, result outcome → result' outcome) :
    act.Settles objects property result' := by
  intro world hobjects hproperty
  obtain ⟨outcome, after, hact, hresult, hafter⟩ := h world hobjects hproperty
  exact ⟨outcome, after, hact, himp outcome hresult, hafter⟩

/-! ### Scripts -/

theorem done {outcome : Except EvalError α} (h : result outcome) :
    ((Script.done outcome).run reach gateway).Settles objects property result :=
  fun world hobjects hproperty => ⟨outcome, world, rfl, h, hobjects, hproperty⟩

theorem bind {script : BodyScript α}
    (first : (script.run reach gateway).Settles objects property result)
    {next : α → BodyScript β} {result' : Except EvalError β → Prop}
    (failed : ∀ error, result (.error error) → result' (.error error))
    (ended : ∀ value, result (.ok value) →
      ((next value).run reach gateway).Settles objects property result') :
    ((script >>= next).run reach gateway).Settles objects property result' := by
  intro world hobjects hproperty
  obtain ⟨outcome, middle, hact, hresult, hmiddle, hmiddle'⟩ := first world hobjects hproperty
  rw [Script.bind_eq_andThen, Script.run_andThen, Eval.andThen, hact]
  cases outcome with
  | error error => exact ⟨.error error, middle, rfl, failed error hresult, hmiddle, hmiddle'⟩
  | ok value => exact ended value hresult middle hmiddle hmiddle'

theorem heap {next : Heap → BodyScript α}
    (h : ∀ heap : Heap, heap.objects = objects →
      ((next heap).run reach gateway).Settles objects property result) :
    ((Script.heap >>= next).run reach gateway).Settles objects property result :=
  fun world hobjects hproperty => h world.heap hobjects world hobjects hproperty

theorem newList {items : List Value} {result : Except EvalError Value → Prop}
    (h : ∀ id, result (.ok (.list id items))) :
    ((Script.newList items).run reach gateway).Settles objects property result :=
  fun world hobjects hproperty =>
    ⟨.ok (.list world.heap.lists items), _, rfl, h world.heap.lists, hobjects, hproperty⟩

theorem getValue {index : Nat} {source : Value} {result : Except EvalError Value → Prop}
    (h : ((reach index).get source).Settles objects property result) :
    ((Script.getValue index source).run reach gateway).Settles objects property result := by
  rwa [Script.run_getValue]

theorem mapM {indices : List Nat} {source : Value} {result : Nat → Except EvalError Value → Prop}
    (h : ∀ index ∈ indices, ((reach index).get source).Settles objects property (result index)) :
    ((indices.mapM (Script.getValue · source)).run reach gateway).Settles objects property
      (Collects result indices) := by
  induction indices with
  | nil => exact done .nil
  | cons index rest ih =>
    obtain ⟨hindex, hrest⟩ := List.forall_mem_cons.1 h
    rw [List.mapM_cons]
    apply (getValue hindex).bind
    · intro error herror
      exact .first herror
    · intro value hvalue
      apply (ih hrest).bind
      · intro error herror
        exact .later hvalue herror
      · intro values hvalues
        exact done (.cons hvalue hvalues)

/-! ### Layers -/

theorem traced (h : act.Settles objects property result) (node : NodeId) (kind : Kind)
    (source : Value) (setter : Bool) (value? : α → Option Value) :
    (Engine.traced node kind source setter value? act).Settles objects property result :=
  fun world hobjects hproperty => Engine.exists_traced
    (fun trace => h (world.withTrace trace) hobjects hproperty) (fun _ hends => hends) node kind
    source setter value?

theorem visiting (h : act.Settles objects property result) (node : NodeId) (object : Value) :
    (Engine.visiting node object act).Settles objects property result :=
  fun world hobjects hproperty => h (world.visit node object) hobjects hproperty

section Cached
variable {home : TreeId} {id : NodeId} {ask : Eval Bool} {act : Eval Value}
  {result : Except EvalError Value → Prop}
  (right : ∀ constants value, property constants → (constants.cell home id).value = some value →
    result (.ok value))
include right

theorem kept (h : act.Settles objects property result) :
    (Engine.kept home id act).Settles objects property result := by
  intro world hobjects hproperty
  rw [Engine.kept]
  cases hvalue : (world.constants.cell home id).value with
  | none => exact h world hobjects hproperty
  | some value =>
    have hresult := right world.constants value hproperty hvalue
    exact ⟨.ok value, world, rfl, hresult, hobjects, hproperty⟩

variable {constant : Bool} (answers : ∀ world, ask world = (.ok (.ok constant), world))
  (check : ∀ constants, property constants → property (constants.check home id))
  (keep : constant = true → ∀ constants value, property constants → result (.ok value) →
    property (constants.keep home id value))
include answers check keep

/-- A get by way of the constant of a node: the value kept before has to be such a result, and such
a result may be kept if the node is constant. -/
theorem cached (h : act.Settles objects property result) :
    (Engine.cached home id ask act).Settles objects property result := by
  intro world hobjects hproperty
  rw [Engine.cached]
  split
  next => exact h.kept right world hobjects hproperty
  next =>
    rw [Eval.andThen, answers]
    have hchecked := check world.constants hproperty
    cases constant with
    | false => exact h.kept right _ hobjects hchecked
    | true =>
      obtain ⟨outcome, after, hact, hresult, hrecords, hafter⟩ :=
        h { world with constants := world.constants.check home id } hobjects hchecked
      simp only [Engine.keeping, Eval.andThen, hact]
      cases outcome with
      | error error => exact ⟨.error error, after, rfl, hresult, hrecords, hafter⟩
      | ok value =>
        have hkeep := keep rfl after.constants value hafter hresult
        obtain ⟨held, hheld⟩ := after.constants.exists_value_keep home id value
        refine ⟨.ok held, { after with constants := after.constants.keep home id value }, ?_,
          right _ held hkeep hheld, hrecords, hkeep⟩
        simp only [hheld, Option.getD_some]

end Cached

end Eval.Settles
end ObjectNavigation
