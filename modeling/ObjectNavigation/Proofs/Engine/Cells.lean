import ObjectNavigation.Proofs.Engine.Constancy
import ObjectNavigation.Proofs.Engine.Gets

/-!
What is known about the constancy of a node, from the first get to the last. Whatever bodies and
accessors do, a node is asked at its first get and at no other, and what that get stores, if the
node says that it is constant and its body succeeds, is the answer to all gets that begin after it.
If it stores nothing, nothing is ever stored and all later gets run the body
(`Workspace.Evolves.asked_once`). This is shown for one node at a time: `Leads` follows its cell
through the gets that a computation begins, one after the other.
-/

namespace ObjectNavigation

namespace Get

/-- The value that a get keeps if the node answered that and its body came to this. -/
def stored (constant : Bool) (ran : Except Misuse (Except EvalError Value)) : Option Value :=
  match constant, ran with
  | true, .ok (.ok value) => some value
  | _, _ => none

/-- The first get of a node: the node is asked, and its body is run if it answers. -/
inductive Opens (get : Get) : Prop where
  | stopped {misuse : Misuse} (before : get.before = {}) (asked : get.asked = some (.error misuse))
      (ran : get.ran = none) (outcome : get.outcome = .error misuse)
      (after : get.after = ⟨true, none⟩)
  | refused {error : EvalError} (before : get.before = {})
      (asked : get.asked = some (.ok (.error error))) (ran : get.ran = none)
      (outcome : get.outcome = .ok (.error error)) (after : get.after = ⟨true, none⟩)
  | answered {constant : Bool} (before : get.before = {})
      (asked : get.asked = some (.ok (.ok constant))) (ran : get.ran = some get.outcome)
      (after : get.after = ⟨true, stored constant get.outcome⟩)

/-- A get of a node that is not asked again, and of which no more becomes known. -/
structure Repeats (cell : Cell) (get : Get) : Prop where
  before : get.before = cell
  after : get.after = cell
  asked : get.asked = none
  kept : ∀ value, cell.value = some value →
    get.outcome = .ok (.ok value) ∧ get.ran = none ∧ get.inner = []
  again : cell.value = none → get.ran = some get.outcome

theorem Opens.checked {get : Get} (h : get.Opens) : get.after.checked = true := by
  cases h with
  | stopped _ _ _ _ after | refused _ _ _ _ after | answered _ _ _ after => rw [after]

end Get

/-- From the first cell of the node the gets lead to the second. -/
inductive Leads (tree : TreeId) (node : NodeId) : Cell → List Get → Cell → Prop where
  | nil (cell : Cell) : Leads tree node cell [] cell
  | other {get : Get} {rest : List Get} {before middle after : Cell}
      (h : ¬(get.tree = tree ∧ get.node = node)) (inner : Leads tree node before get.inner middle)
      (hrest : Leads tree node middle rest after) : Leads tree node before (get :: rest) after
  | first {get : Get} {rest : List Get} {after : Cell} (h : get.tree = tree ∧ get.node = node)
      (opens : get.Opens) (inner : Leads tree node ⟨true, none⟩ get.inner ⟨true, none⟩)
      (hrest : Leads tree node get.after rest after) : Leads tree node {} (get :: rest) after
  | later {get : Get} {rest : List Get} {cell after : Cell}
      (h : get.tree = tree ∧ get.node = node) (checked : cell.checked = true)
      (repeats : get.Repeats cell)
      (inner : Leads tree node cell get.inner cell) (hrest : Leads tree node cell rest after) :
      Leads tree node cell (get :: rest) after

namespace Leads
variable {tree : TreeId} {node : NodeId} {before middle after : Cell} {gets later : List Get}

theorem append (h : Leads tree node before gets middle)
    (hlater : Leads tree node middle later after) :
    Leads tree node before (gets ++ later) after := by
  induction h with
  | nil => exact hlater
  | other h inner _ _ ih => exact .other h inner (ih hlater)
  | first h opens inner _ _ ih => exact .first h opens inner (ih hlater)
  | later h checked repeats inner _ _ ih => exact .later h checked repeats inner (ih hlater)

/-- Once the node has been asked, its cell stays as it is and no get asks it again. -/
theorem repeats (h : Leads tree node before gets after) (checked : before.checked = true) :
    after = before ∧ ∀ get ∈ Get.allOfNode tree node gets, get.Repeats before := by
  induction h with
  | nil => exact ⟨rfl, by simp [Get.allOfNode]⟩
  | other h _ _ ihinner ihrest =>
    obtain ⟨rfl, hinner⟩ := ihinner checked
    obtain ⟨rfl, hrest⟩ := ihrest checked
    rw [Get.allOfNode, Get.ofNode_of_ne h, List.forall_mem_append]
    exact ⟨rfl, hinner, hrest⟩
  | first => cases checked
  | later h _ repeats _ _ ihinner ihrest =>
    -- A get of the node found it asked, and the gets begun during that one do so too.
    obtain ⟨rfl, hrest⟩ := ihrest checked
    rw [Get.allOfNode, Get.ofNode_of_eq h, List.cons_append, List.forall_mem_cons,
      List.forall_mem_append]
    exact ⟨rfl, repeats, (ihinner checked).2, hrest⟩

end Leads

/-- What is known about a node after these gets of it: nothing if there are none, and otherwise
what the first of them left. The gets begun during that one find the node asked, and no value. -/
inductive Get.Settle (tree : TreeId) (node : NodeId) (cell : Cell) : List Get → Prop where
  | never (blank : cell = {}) : Settle tree node cell []
  | once {first : Get} {later : List Get} (opens : first.Opens) (after : first.after = cell)
      (inner : ∀ get ∈ allOfNode tree node first.inner, get.Repeats ⟨true, none⟩)
      (hlater : ∀ get ∈ later, get.Repeats cell) :
      Settle tree node cell (first :: (allOfNode tree node first.inner ++ later))

theorem Leads.settle {tree : TreeId} {node : NodeId} {before after : Cell} {gets : List Get}
    (h : Leads tree node before gets after) (blank : before = {}) :
    Get.Settle tree node after (Get.allOfNode tree node gets) := by
  induction h with
  | nil => exact .never blank
  | @other get rest _ _ _ h _ hrest ihinner ihrest =>
    rw [Get.allOfNode, Get.ofNode_of_ne h]
    generalize Get.allOfNode tree node get.inner = inner at ihinner
    -- The first get of the node is begun during this one, or it comes after it.
    cases ihinner blank with
    | never hmiddle => exact ihrest hmiddle
    | once opens hafter inner hlater =>
      obtain ⟨rfl, hrepeats⟩ := hrest.repeats (hafter ▸ opens.checked)
      rw [List.cons_append, List.append_assoc]
      refine .once opens hafter inner ?_
      rw [List.forall_mem_append]
      exact ⟨hlater, hrepeats⟩
  | first h opens inner hrest _ _ =>
    obtain ⟨rfl, hrepeats⟩ := hrest.repeats opens.checked
    rw [Get.allOfNode, Get.ofNode_of_eq h, List.cons_append]
    exact .once opens rfl (inner.repeats rfl).2 hrepeats
  | later _ checked =>
    rw [blank] at checked
    cases checked

def Cell.Ready (cell : Cell) : Prop :=
  cell.checked = false → cell = {}

theorem Cell.Ready.eq_of_value {cell : Cell} (h : cell.Ready) {value : Value}
    (hvalue : cell.value = some value) : cell = ⟨true, some value⟩ := by
  obtain ⟨_ | _, kept⟩ := cell
  · cases h rfl
    cases hvalue
  · rw [hvalue.symm]

theorem Leads.ready {tree : TreeId} {node : NodeId} {before after : Cell} {gets : List Get}
    (h : Leads tree node before gets after) (hready : before.Ready) : after.Ready := by
  cases hchecked : before.checked with
  | true =>
    rw [(h.repeats hchecked).1]
    exact hready
  | false =>
    have hsettle := h.settle (hready hchecked)
    generalize Get.allOfNode tree node gets = mine at hsettle
    intro hnot
    cases hsettle with
    | never hblank => exact hblank
    | once opens hafter =>
      rw [← hafter, opens.checked] at hnot
      cases hnot

/-! ### Computations -/

theorem Engine.keeping_of_asked {tree : TreeId} {node : NodeId} (act : Eval Value) (world : World)
    (h : (act world).2.constants.cell tree node = ⟨true, none⟩) :
    (keeping tree node act world).1 = (act world).1 ∧
      (keeping tree node act world).2.constants.cell tree node =
        ⟨true, Get.stored true (act world).1⟩ := by
  rw [keeping, Eval.andThen]
  rcases hact : act world with ⟨misuse | error | value, after⟩ <;> rw [hact] at h
  · exact ⟨rfl, h⟩
  · exact ⟨rfl, h⟩
  · have hkept : (after.constants.keep tree node value).cell tree node = ⟨true, some value⟩ := by
      rw [Constants.keep, h]
      dsimp only
      rw [Constants.cell_put, if_pos ⟨rfl, rfl⟩]
    dsimp only
    rw [hkept]
    exact ⟨rfl, rfl⟩

/-- The gets of the computation lead from what the cell of the node is to what it is afterwards. -/
def Eval.Tells {α : Type} (tree : TreeId) (node : NodeId) (act : Eval α)
    (gets : World → List Get) : Prop :=
  ∀ world : World, (world.constants.cell tree node).Ready →
    Leads tree node (world.constants.cell tree node) (gets world)
      ((act world).2.constants.cell tree node)

structure Handle.Tells (tree : TreeId) (node : NodeId) (handle : Handle) (gets : Gets) : Prop where
  get : ∀ source, (handle.get source).Tells tree node (gets.get source)
  set : ∀ target value, (handle.set target value).Tells tree node (gets.set target value)
  ask : ∀ question, (handle.ask question).Tells tree node (gets.ask question)

namespace Eval.Tells
variable {α β : Type} {tree : TreeId} {node : NodeId}

theorem finish (outcome : Except EvalError α) :
    (Eval.finish outcome).Tells tree node fun _ => [] :=
  fun _ _ => .nil _

theorem misuse (misuse : Misuse) : (Eval.misuse misuse : Eval α).Tells tree node fun _ => [] :=
  fun _ _ => .nil _

theorem invoke (gateway : Option Registry) (call : Invocation) :
    (ObjectNavigation.invoke gateway call).Tells tree node fun _ => [] := by
  intro world _
  cases gateway <;> exact .nil _

theorem andThen {act : Eval α} {gets : World → List Get} (first : act.Tells tree node gets)
    {next : Except EvalError α → Eval β} {later : Except EvalError α → World → List Get}
    (hnext : ∀ outcome, (next outcome).Tells tree node (later outcome)) :
    (act.andThen next).Tells tree node (act.getsThen gets later) := by
  intro world hready
  have hfirst := first world hready
  rw [Eval.andThen, Eval.getsThen]
  rcases hact : act world with ⟨misuse | outcome, after⟩
  · rw [hact] at hfirst
    dsimp only
    rwa [List.append_nil]
  · rw [hact] at hfirst
    exact hfirst.append (hnext outcome after (hfirst.ready hready))

theorem run {C : Type} {reach : C → Handle} {inner : C → Gets}
    (hreach : ∀ child, (reach child).Tells tree node (inner child)) (gateway : Option Registry)
    (script : Script C α) :
    (script.run reach gateway).Tells tree node (script.gets reach inner gateway) := by
  induction script with
  | done outcome => exact finish outcome
  | get child source rest ih => exact ((hreach child).get source).andThen ih
  | set child target value rest ih => exact ((hreach child).set target value).andThen ih
  | ask child question rest ih => exact ((hreach child).ask question).andThen ih
  | invoke call rest ih => exact (invoke gateway call).andThen ih
  | look rest ih => exact fun world hready => ih world.surface world hready
  | locate rest ih => exact fun world hready => ih world.context.position world hready
  | alter change rest ih =>
    exact fun world hready => ih (world.withSurface (change world.surface)) hready

theorem kept {act : Eval Value} {acting : World → List Get}
    (hact : act.Tells tree node acting) (home : TreeId) (id : NodeId) :
    (Engine.kept home id act).Tells tree node fun world =>
      (Engine.ranUnkept home id act acting world).2 := by
  intro world hready
  dsimp only
  rw [Engine.ranUnkept, Engine.kept]
  cases (world.constants.cell home id).value with
  | some value => exact .nil _
  | none => exact hact world hready

section Cached
variable {home : TreeId} {id : NodeId} {constant : Eval Bool} {act : Eval Value}
  {asking acting : World → List Get} (hconstant : constant.Tells tree node asking)
  (hact : act.Tells tree node acting) (source : Value)
include hact

theorem cached_of_checked {world : World}
    (hchecked : (world.constants.cell tree node).checked = true) :
    Leads tree node (world.constants.cell tree node)
      [Engine.cachedGet tree node source constant act asking acting world]
      ((Engine.cached tree node constant act world).2.constants.cell tree node) := by
  have hran := hact world fun hnot => by rw [hchecked] at hnot; cases hnot
  simp only [Engine.cachedGet, Engine.cached, hchecked, if_true, Engine.kept, Engine.ranUnkept]
  rcases hcell : world.constants.cell tree node with ⟨checked, _ | value⟩ <;>
    rw [hcell] at hchecked hran <;> cases hchecked
  case none =>
    have hstays := (hran.repeats rfl).1
    dsimp only
    rw [hstays] at hran ⊢
    exact .later ⟨rfl, rfl⟩ rfl ⟨rfl, rfl, rfl, by rintro _ ⟨⟩, fun _ => rfl⟩ hran (.nil _)
  case some =>
    dsimp only
    rw [hcell]
    refine .later ⟨rfl, rfl⟩ rfl ⟨rfl, rfl, rfl, ?_, by rintro ⟨⟩⟩ (.nil _) (.nil _)
    rintro _ ⟨⟩
    exact ⟨rfl, rfl, rfl⟩

include hconstant

theorem cached_of_ne (hne : ¬(tree = home ∧ node = id)) :
    (Engine.cached home id constant act).Tells tree node fun world =>
      [Engine.cachedGet home id source constant act asking acting world] := by
  have hother : ¬(home = tree ∧ id = node) := fun h => hne ⟨h.1.symm, h.2.symm⟩
  intro world hready
  simp only [Engine.cachedGet, Engine.cached]
  split
  next => exact .other hother (kept hact home id world hready) (.nil _)
  next =>
    have hcheck := world.constants.cell_check_of_ne hne
    have hasked := hconstant { world with constants := world.constants.check home id }
      (by rwa [hcheck])
    rw [hcheck] at hasked
    rw [Eval.andThen]
    rcases hask : constant { world with constants := world.constants.check home id } with
      ⟨misuse | error | answer, middle⟩ <;> rw [hask] at hasked
    case error | ok.error => exact .other hother hasked (.nil _)
    case ok.ok =>
      have hmiddle := hasked.ready hready
      cases answer with
      | false =>
        exact .other hother (hasked.append (kept hact home id middle hmiddle)) (.nil _)
      | true =>
        dsimp only
        rw [Engine.cell_keeping_of_ne act middle hne]
        exact .other hother (hasked.append (hact middle hmiddle)) (.nil _)

/-- The first get of a node. While it takes place the node counts as asked and has no value. -/
theorem cached_of_blank {world : World} (hblank : world.constants.cell tree node = {}) :
    Leads tree node {} [Engine.cachedGet tree node source constant act asking acting world]
      ((Engine.cached tree node constant act world).2.constants.cell tree node) := by
  have hbegun : (world.constants.check tree node).cell tree node = ⟨true, none⟩ := by
    rw [Constants.check, Constants.cell_put, if_pos ⟨rfl, rfl⟩, hblank]
  have hasked := hconstant { world with constants := world.constants.check tree node }
    fun hnot => by rw [hbegun] at hnot; cases hnot
  rw [hbegun] at hasked
  simp only [Engine.cachedGet, Engine.cached, hblank, Bool.false_eq_true, if_false, Eval.andThen]
  rcases hask : constant { world with constants := world.constants.check tree node } with
    ⟨misuse | error | answer, middle⟩ <;> rw [hask] at hasked <;>
    have hmiddle := (hasked.repeats rfl).1 <;> dsimp only at hmiddle hasked <;>
    rw [hmiddle] at hasked
  case error =>
    dsimp only
    rw [hmiddle]
    exact .first ⟨rfl, rfl⟩ (.stopped rfl rfl rfl rfl rfl) hasked (.nil _)
  case ok.error =>
    dsimp only [Eval.finish]
    rw [hmiddle]
    exact .first ⟨rfl, rfl⟩ (.refused rfl rfl rfl rfl rfl) hasked (.nil _)
  case ok.ok =>
    have hran := hact middle fun hnot => by rw [hmiddle] at hnot; cases hnot
    rw [hmiddle] at hran
    have hended := (hran.repeats rfl).1
    rw [hended] at hran
    have hinner := hasked.append hran
    cases answer with
    | false =>
      simp only [Engine.ranUnkept, Engine.kept, hmiddle]
      rw [hended]
      exact .first ⟨rfl, rfl⟩ (.answered rfl rfl rfl rfl) hinner (.nil _)
    | true =>
      -- No get begun meanwhile has kept a value, so the value of the body is the one that is kept.
      obtain ⟨houtcome, hkept⟩ := Engine.keeping_of_asked act middle hended
      dsimp only
      rw [houtcome, hkept]
      exact .first ⟨rfl, rfl⟩ (.answered rfl rfl rfl rfl) hinner (.nil _)

theorem cached_of_eq :
    (Engine.cached tree node constant act).Tells tree node fun world =>
      [Engine.cachedGet tree node source constant act asking acting world] := by
  intro world hready
  cases hchecked : (world.constants.cell tree node).checked with
  | true => exact cached_of_checked hact source hchecked
  | false =>
    have hblank := hready hchecked
    rw [hblank]
    exact cached_of_blank hconstant hact source hblank

theorem cached :
    (Engine.cached home id constant act).Tells tree node fun world =>
      [Engine.cachedGet home id source constant act asking acting world] := by
  by_cases h : tree = home ∧ node = id
  · obtain ⟨rfl, rfl⟩ := h
    exact cached_of_eq hconstant hact source
  · exact cached_of_ne hconstant hact source h

end Cached

theorem visiting_traced {act : Eval α} {gets : World → List Get} (h : act.Tells tree node gets)
    (id : NodeId) (kind : Kind) (object : Value) (setter : Bool) (result : α → Option Value) :
    (Engine.traced id kind object setter result (Engine.visiting id object act)).Tells tree node
      fun world => gets ((Watched.entered id kind object setter world).visit id object) := by
  intro world hready
  obtain ⟨trace, htraced⟩ := Watched.traced_eq_entered id kind object setter result
    (Engine.visiting id object act) world
  obtain ⟨trace', hentered⟩ := Watched.entered_eq_withTrace id kind object setter world
  have hvisited := h ((Watched.entered id kind object setter world).visit id object)
  dsimp only
  rw [htraced, hentered]
  rw [hentered] at hvisited
  exact hvisited hready

end Eval.Tells

namespace Handle.Tells
variable {tree : TreeId} {node : NodeId}

theorem absent (error : EvalError) : (Handle.absent error).Tells tree node {} where
  get _ := .finish _
  set _ _ := .finish _
  ask _ := .finish _

theorem stray (misuse : Misuse) : (Handle.stray misuse).Tells tree node {} where
  get _ := .misuse _
  set _ _ := .misuse _
  ask _ := .misuse _

end Handle.Tells

theorem Engine.tells_node {env : Env} {enter : Entry → Gets} {tree : TreeId} {node : NodeId}
    (henter : ∀ entry, (env.enter entry).Tells tree node (enter entry)) (home : TreeId)
    (id : NodeId) (body : Body) (seat : Seat) {child : Nat → Option Handle} {inner : Nat → Gets}
    (hreach : ∀ index, (reach body.kind child index).Tells tree node (inner index)) :
    (Engine.node env home id body seat child).Tells tree node
      (Engine.gets env enter home id body seat child inner) := by
  have hask : ∀ question, ((body.ask seat question).run (reach body.kind child) env.gateway).Tells
      tree node ((body.ask seat question).gets (reach body.kind child) inner env.gateway) :=
    fun question => .run hreach env.gateway _
  refine ⟨fun source => ?_, fun target value => ?_, hask⟩
  · simp only [Engine.node, Engine.gets]
    cases substitute? env home id body with
    | none =>
      have hread := Eval.Tells.run hreach env.gateway (body.read seat source)
      exact ((hask .constant).cached hread source).visiting_traced id body.kind source false some
    | some accessor =>
      have hread := Eval.Tells.run henter env.gateway (accessor.read source)
      exact ((hask .constant).cached hread source).visiting_traced id body.kind source false some
  · simp only [Engine.node, Engine.gets]
    cases substitute? env home id body with
    | none =>
      have hassign := Eval.Tells.run hreach env.gateway (body.assign seat target value)
      exact hassign.visiting_traced id body.kind target true fun _ => none
    | some accessor =>
      have hassign := Eval.Tells.run henter env.gateway (accessor.assign target value)
      exact hassign.visiting_traced id body.kind target true fun _ => none

namespace Tree
variable {env : Env} {enter : Entry → Gets} {tree : TreeId} {node : NodeId}

theorem tells_handle (henter : ∀ entry, (env.enter entry).Tells tree node (enter entry))
    (home : TreeId) (id : NodeId) (expression : Tree) :
    (expression.handle env home id).Tells tree node (expression.gets env enter home id) := by
  induction id, expression using child_induction with
  | node id body slots ih =>
    refine Engine.tells_node henter home id body _ fun index => ?_
    rw [Engine.reach, child_eq, childGets_eq]
    cases hentry : child? (id + 1) slots index with
    | none => exact .absent _
    | some entry => exact ih index entry hentry

theorem get_of_value {world : World} {home : TreeId} {id : NodeId} {value : Value}
    (hcell : world.constants.cell home id = ⟨true, some value⟩) (env : Env) (expression : Tree)
    (source : Value) :
    ((expression.handle env home id).get source world).1 = .ok (.ok value) ∧
      ((expression.handle env home id).get source world).2.outside = world.outside ∧
      ((expression.handle env home id).get source world).2.constants = world.constants := by
  have hcached : ∀ (constant : Eval Bool) (act : Eval Value) (trace : Trace),
      Engine.visiting id source (Engine.cached home id constant act) (world.withTrace trace) =
        (.ok (.ok value), (world.withTrace trace).visit id source) := by
    intro constant act trace
    simp [Engine.visiting, Engine.cached, Engine.kept, World.visit, World.withTrace, hcell]
  cases expression with
  | node body slots =>
    rw [handle]
    simp only [Engine.node]
    obtain ⟨trace, trace', houtcome, hafter⟩ := Engine.traced_eq_withTrace id body.kind source
      false some (Engine.visiting id source (Engine.cached home id _ _)) world
    rw [houtcome, hafter, hcached]
    exact ⟨rfl, rfl, rfl⟩

theorem tells_handleAt (henter : ∀ entry, (env.enter entry).Tells tree node (enter entry))
    (home : TreeId) (expression : Tree) (id : NodeId) :
    (expression.handleAt env home id).Tells tree node (expression.getsAt env enter home id) := by
  unfold handleAt getsAt
  cases expression.lookUp id with
  | error misuse => exact .stray misuse
  | ok place => exact tells_handle henter home id place.subtree

theorem tells_entrance (henter : ∀ entry, (env.enter entry).Tells tree node (enter entry))
    (home : TreeId) (expression : Tree) :
    (expression.entrance env home).Tells tree node (expression.entranceGets env enter home) := by
  unfold entrance entranceGets
  have hroot := tells_handle henter home 0 expression
  cases env.accessor home 0 with
  | none => exact hroot
  | some accessor =>
    exact ⟨fun source => .run henter env.gateway _, fun target value => .run henter env.gateway _,
      hroot.ask⟩

end Tree

namespace Workspace

theorem tells_enter (workspace : Workspace) (gateway : Option Registry) (tree : TreeId)
    (node : NodeId) (depth : Nat) (entry : Entry) :
    (workspace.enter gateway depth entry).Tells tree node
      (workspace.gets gateway depth entry) := by
  induction depth generalizing entry with
  | zero => exact .stray .endlessDelegation
  | succ depth ih =>
    simp only [enter, gets]
    cases workspace.trees[entry.tree]? with
    | none => exact .stray .noSuchTree
    | some expression =>
      cases entry.node with
      | none => exact Tree.tells_entrance ih entry.tree expression
      | some id => exact Tree.tells_handleAt ih entry.tree expression id

/-! ### Workspaces that evolve -/

def getsIn (workspace : Workspace) (id : ContextId) (entry : Entry) : Gets :=
  workspace.gets (workspace.gateway (workspace.context id)) delegationDepth entry

/-- A workspace becomes another, and these gets are begun meanwhile: nodes and trees are got, set
and asked, from any contexts and also through accessors, and whatever does not belong to the
constants changes. -/
inductive Evolves (start : Workspace) : List Get → Workspace → Prop where
  | here : Evolves start [] start
  | change {gets : List Get} {workspace next : Workspace} (h : Evolves start gets workspace)
      (same : next.constants = workspace.constants) : Evolves start gets next
  | get {gets : List Get} {workspace : Workspace} (h : Evolves start gets workspace)
      (id : ContextId) (entry : Entry) (source : Value) :
      Evolves start
        (gets ++ (workspace.getsIn id entry).get source (workspace.world (workspace.context id)))
        (workspace.get id entry source).2
  | set {gets : List Get} {workspace : Workspace} (h : Evolves start gets workspace)
      (id : ContextId) (entry : Entry) (target value : Value) :
      Evolves start
        (gets ++ (workspace.getsIn id entry).set target value
          (workspace.world (workspace.context id)))
        (workspace.set id entry target value).2
  | through {gets : List Get} {workspace : Workspace} (h : Evolves start gets workspace)
      (id : ContextId) (accessor : Accessor) (source : Value) :
      Evolves start
        (gets ++ (accessor.read source).gets
          (workspace.enter (workspace.gateway (workspace.context id)) delegationDepth)
          (workspace.getsIn id) (workspace.gateway (workspace.context id))
          (workspace.world (workspace.context id)))
        (workspace.getThrough id accessor source).2
  | ask {gets : List Get} {workspace : Workspace} (h : Evolves start gets workspace)
      (tree : TreeId) (place : Tree.Place) (question : Question) :
      Evolves start
        (gets ++ (place.subtree.gets (workspace.env none) (workspace.gets none delegationDepth)
          tree place.id).ask question (workspace.world {}))
        (workspace.ask tree place question).2

theorem exists_handle {workspace : Workspace} {tree : TreeId} {node : NodeId} {expression : Tree}
    (htree : workspace.trees[tree]? = some expression) (hnode : node < expression.size)
    (id : ContextId) :
    ∃ (env : Env) (enter : Entry → Gets) (sub : Tree),
      workspace.handle (workspace.context id) ⟨tree, some node⟩ = sub.handle env tree node ∧
      workspace.getsIn id ⟨tree, some node⟩ = sub.gets env enter tree node := by
  obtain ⟨place, hlookUp⟩ := Tree.exists_lookUp hnode
  have hdepth : delegationDepth = 1023 + 1 := rfl
  rw [handle, getsIn, hdepth, enter, gets]
  simp only [htree, Tree.handleAt, Tree.getsAt, hlookUp]
  exact ⟨_, _, place.subtree, rfl, rfl⟩

namespace Evolves
variable {start workspace : Workspace} {gets : List Get}

theorem leads (h : start.Evolves gets workspace) (tree : TreeId) (node : NodeId)
    (ready : (start.constants.cell tree node).Ready) :
    Leads tree node (start.constants.cell tree node) gets
      (workspace.constants.cell tree node) := by
  induction h with
  | here => exact .nil _
  | change _ same ih =>
    rw [same]
    exact ih
  | @get gets workspace _ id entry source ih =>
    have hget := (workspace.tells_enter (workspace.gateway (workspace.context id)) tree node
      delegationDepth entry).get source
    exact ih.append (hget (workspace.world (workspace.context id)) (ih.ready ready))
  | @set gets workspace _ id entry target value ih =>
    have hset := (workspace.tells_enter (workspace.gateway (workspace.context id)) tree node
      delegationDepth entry).set target value
    exact ih.append (hset (workspace.world (workspace.context id)) (ih.ready ready))
  | @through gets workspace _ id accessor source ih =>
    have henter := workspace.tells_enter (workspace.gateway (workspace.context id)) tree node
      delegationDepth
    have hread := Eval.Tells.run henter (workspace.gateway (workspace.context id))
      (accessor.read source)
    exact ih.append (hread (workspace.world (workspace.context id)) (ih.ready ready))
  | @ask gets workspace _ home place question ih =>
    have hask := (@Tree.tells_handle (workspace.env none) _ tree node
      (workspace.tells_enter none tree node delegationDepth) home place.id place.subtree).ask
      question
    exact ih.append (hask (workspace.world {}) (ih.ready ready))

/-- Whatever the bodies of the nodes do, and however gets and sets of nodes follow each other or
take place during each other, a node is asked at its first get and at no other. -/
theorem asked_once {tree : TreeId} {node : NodeId} (blank : start.constants.cell tree node = {})
    (h : start.Evolves gets workspace) :
    Get.Settle tree node (workspace.constants.cell tree node) (Get.allOfNode tree node gets) ∧
    (∀ next later, workspace.Evolves later next →
      (workspace.constants.cell tree node).checked = true →
        next.constants.cell tree node = workspace.constants.cell tree node ∧
        ∀ get ∈ Get.allOfNode tree node later,
          get.Repeats (workspace.constants.cell tree node)) ∧
    ∀ expression, workspace.trees[tree]? = some expression → node < expression.size →
      ∀ id source,
        (∃ get, (workspace.getsIn id ⟨tree, some node⟩).get source
            (workspace.world (workspace.context id)) = [get] ∧
          get.tree = tree ∧ get.node = node ∧ get.source = source ∧
          get.outcome = (workspace.get id ⟨tree, some node⟩ source).1 ∧
          ∃ kind act,
            (workspace.handle (workspace.context id) ⟨tree, some node⟩).get source =
              Engine.getting tree node kind source
                ((workspace.handle (workspace.context id) ⟨tree, some node⟩).ask .constant) act ∧
            get.Shows kind
              ((workspace.handle (workspace.context id) ⟨tree, some node⟩).ask .constant) act
              (workspace.world (workspace.context id))) ∧
        ∀ value, (workspace.constants.cell tree node).value = some value →
          (workspace.get id ⟨tree, some node⟩ source).1 = .ok (.ok value) ∧
          (workspace.get id ⟨tree, some node⟩ source).2.outside = workspace.outside ∧
          (workspace.get id ⟨tree, some node⟩ source).2.constants = workspace.constants := by
  have hleads := h.leads tree node fun _ => blank
  have hready := hleads.ready fun _ => blank
  refine ⟨hleads.settle blank, ?_, ?_⟩
  · intro next later hnext hchecked
    exact (hnext.leads tree node hready).repeats hchecked
  · intro expression htree hnode id source
    obtain ⟨env, enter, sub, hhandle, hgets⟩ := exists_handle htree hnode id
    simp only [Workspace.get, performIn, perform, hhandle, hgets]
    refine ⟨Tree.gets_get env enter tree node sub source _, ?_⟩
    intro value hvalue
    exact Tree.get_of_value (hready.eq_of_value hvalue) env sub source

def constantEcho : Workspace where
  trees := #[.node (.host
    { kind := .custom "K", read := fun _ source => pure source
      ownConstant := fun _ => pure true }) []]
  contexts := #[{}, {}]

/-- The source of the first get is the answer to all gets. -/
theorem constantEcho_asked_once : ∃ gets workspace, constantEcho.Evolves gets workspace ∧
    gets.map Get.outcome = [.ok (.ok (.int 1)), .ok (.ok (.int 1))] ∧
    Get.Settle 0 0 ⟨true, some (.int 1)⟩ (Get.allOfNode 0 0 gets) ∧
    ∀ id source, (workspace.get id ⟨0, some 0⟩ source).1 = .ok (.ok (.int 1)) := by
  have first := (@Evolves.here constantEcho).get 0 ⟨0, some 0⟩ (.int 1)
  have second := first.get 1 ⟨0, some 0⟩ (.int 2)
  have once := @asked_once _ _ _ 0 0 rfl second
  refine ⟨_, _, second, rfl, once.1, fun id source => ?_⟩
  exact ((once.2.2 _ rfl (by decide) id source).2 (.int 1) rfl).1

end Evolves
end Workspace
end ObjectNavigation
