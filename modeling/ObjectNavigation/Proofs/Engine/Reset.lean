import ObjectNavigation.Node.Probe
import ObjectNavigation.Proofs.Engine.Twins
import ObjectNavigation.Proofs.Engine.Usage

/-!
A reset makes a context new. Whatever it was used for before, from then on a context does what a new
one does, as long as the bodies and accessors that it is used with take the ids of records for names
(`Used.reset_anew`). A body that looks into ids may tell the two apart (`Context.reset_told`).
-/

namespace ObjectNavigation

/-- What can be done with a context, or with the workspace between its calls. -/
inductive Deed where
  | get (entry : Entry) (source : Value)
  | set (entry : Entry) (target value : Value)
  | configure (settings : Settings) (gateway : Option RegistryId)
  | visit (node : NodeId) (object : Value)
  /-- A record is created by hand and pushed. -/
  | begin (node : NodeId) (kind : Kind) (object : Value) (setter : Bool)
  | clearLast
  | reset
  /-- The host changes trees, accessors, registries or the object graph. -/
  | host (change : Workspace → Workspace)

inductive Answer where
  | got (outcome : Except Misuse (Except EvalError Value))
  | assigned (outcome : Except Misuse (Except EvalError Unit))
  | silent

namespace Deed

def on (workspace : Workspace) (context : Context) : Deed → Answer × Context × Workspace
  | get entry source =>
    let (outcome, after) := workspace.perform context ((workspace.handle context entry).get source)
    (.got outcome, after)
  | set entry target value =>
    let (outcome, after) :=
      workspace.perform context ((workspace.handle context entry).set target value)
    (.assigned outcome, after)
  | configure settings gateway => (.silent, { context with settings, gateway }, workspace)
  | visit node object => (.silent, context.visit node object, workspace)
  | begin node kind object setter =>
    let (id, pool) := context.trace.pool.create node kind object setter
    (.silent, { context with trace := ({ context.trace with pool } : Trace).push id }, workspace)
  | clearLast => (.silent, { context with trace := context.trace.clearLast }, workspace)
  | reset => (.silent, context.reset, workspace)
  | host change => (.silent, context, change workspace)

def run (workspace : Workspace) (context : Context) :
    List Deed → List Answer × Context × Workspace
  | [] => ([], context, workspace)
  | deed :: rest =>
    let (answer, context, workspace) := deed.on workspace context
    let (answers, after) := run workspace context rest
    (answer :: answers, after)

/-- Whatever the host changes, bodies and accessors go on to take ids for names. -/
def Discreet : Deed → Prop
  | host change => ∀ workspace : Workspace, workspace.Discreet → (change workspace).Discreet
  | _ => True

end Deed

namespace Context

/-- The second context is the first with other names of records. -/
structure Renamed (π : Equiv.Perm CallId) (context context' : Context) : Prop where
  settings : context'.settings = context.settings
  gateway : context'.gateway = context.gateway
  currentObject : context'.currentObject = context.currentObject
  currentNode : context'.currentNode = context.currentNode
  trace : context.trace.Renamed π context'.trace

/-- The contexts differ in no more than the names of records. -/
structure Twin (context context' : Context) : Prop where
  rest : { context with trace := {} } = { context' with trace := {} }
  trace : ∃ stack stack', context.trace.Twin context'.trace stack stack'

variable {context context' : Context}

theorem Twin.renamed (twin : context.Twin context') : ∃ π, context.Renamed π context' := by
  obtain ⟨stack, stack', htrace⟩ := twin.trace
  obtain ⟨π, hπ⟩ := htrace.renamed
  have hrest := twin.rest
  rw [Context.mk.injEq] at hrest
  obtain ⟨hsettings, hgateway, hobject, hnode, _⟩ := hrest
  exact ⟨π, hsettings.symm, hgateway.symm, hobject.symm, hnode.symm, hπ⟩

end Context

namespace Workspace
variable {workspace : Workspace} {context context' : Context}

theorem handle_eq (workspace : Workspace) (twin : context.Twin context') (entry : Entry) :
    workspace.handle context' entry = workspace.handle context entry := by
  have hgateway : context.gateway = context'.gateway := (congrArg Context.gateway twin.rest :)
  rw [handle, handle, gateway, gateway, hgateway]

theorem discreet_handle (discreet : workspace.Discreet) (context : Context) (entry : Entry) :
    (workspace.handle context entry).Discreet :=
  discreet_enter discreet _ _ entry

/-- A discreet computation does the same in contexts that differ in no more than names. -/
theorem perform_twin (workspace : Workspace) (twin : context.Twin context') {α : Type}
    {act : Eval α} (h : act.Discreet) :
    (workspace.perform context act).1 = (workspace.perform context' act).1 ∧
      (workspace.perform context act).2.1.Twin (workspace.perform context' act).2.1 ∧
      (workspace.perform context act).2.2 = (workspace.perform context' act).2.2 := by
  obtain ⟨stack, stack', htrace⟩ := twin.trace
  have hrest := congrArg (fun context => workspace.world context) twin.rest
  obtain ⟨houtcome, left, left', hafter, _⟩ :=
    h (workspace.world context) (workspace.world context') stack stack' ⟨hrest, htrace⟩
  refine ⟨houtcome, ⟨congrArg World.context hafter.rest, left, left', hafter.trace⟩, ?_⟩
  simp only [perform, hafter.outside_eq, hafter.constants_eq]

theorem Discreet.perform (discreet : workspace.Discreet) (context : Context) {α : Type}
    (act : Eval α) : (workspace.perform context act).2.2.Discreet :=
  ⟨discreet.trees, discreet.accessors⟩

end Workspace

namespace Deed
variable {workspace : Workspace} {context context' : Context}

/-- One deed: the same is seen of it, the same workspace is left, and contexts that again differ in
no more than names. -/
theorem on_twin (discreet : workspace.Discreet) (twin : context.Twin context') {deed : Deed}
    (h : deed.Discreet) :
    (deed.on workspace context).1 = (deed.on workspace context').1 ∧
      (deed.on workspace context).2.1.Twin (deed.on workspace context').2.1 ∧
      (deed.on workspace context).2.2 = (deed.on workspace context').2.2 ∧
      (deed.on workspace context).2.2.Discreet := by
  obtain ⟨stack, stack', htrace⟩ := twin.trace
  cases deed with
  | get entry source =>
    obtain ⟨houtcome, hafter, hleft⟩ := workspace.perform_twin twin
      ((Workspace.discreet_handle discreet context entry).get source)
    simp only [on, workspace.handle_eq twin]
    exact ⟨congrArg Answer.got houtcome, hafter, hleft, discreet.perform _ _⟩
  | set entry target value =>
    obtain ⟨houtcome, hafter, hleft⟩ := workspace.perform_twin twin
      ((Workspace.discreet_handle discreet context entry).set target value)
    simp only [on, workspace.handle_eq twin]
    exact ⟨congrArg Answer.assigned houtcome, hafter, hleft, discreet.perform _ _⟩
  | configure settings gateway =>
    have hrest := congrArg (fun context : Context => { context with settings, gateway }) twin.rest
    exact ⟨rfl, ⟨hrest, stack, stack', htrace⟩, rfl, discreet⟩
  | visit node object =>
    have hrest := congrArg (Context.visit · node object) twin.rest
    exact ⟨rfl, ⟨hrest, stack, stack', htrace⟩, rfl, discreet⟩
  | begin node kind object setter =>
    obtain ⟨hstands, hstands'⟩ := htrace.stands
    have hbegun := htrace.begin (hstands.sound.create node kind object setter)
      (hstands'.sound.create node kind object setter)
    exact ⟨rfl, ⟨twin.rest, _, _, hbegun⟩, rfl, discreet⟩
  | clearLast => exact ⟨rfl, ⟨twin.rest, stack, stack', htrace.clearLast⟩, rfl, discreet⟩
  | reset =>
    have hrest := congrArg
      (fun context : Context => { context with currentObject := none, currentNode := none })
      twin.rest
    exact ⟨rfl, ⟨hrest, [], [], htrace.reset⟩, rfl, discreet⟩
  | host change => exact ⟨rfl, twin, rfl, h workspace discreet⟩

theorem run_twin (discreet : workspace.Discreet) (twin : context.Twin context') {deeds : List Deed}
    (h : ∀ deed ∈ deeds, deed.Discreet) :
    (run workspace context deeds).1 = (run workspace context' deeds).1 ∧
      (run workspace context deeds).2.1.Twin (run workspace context' deeds).2.1 ∧
      (run workspace context deeds).2.2 = (run workspace context' deeds).2.2 := by
  induction deeds generalizing workspace context context' with
  | nil => exact ⟨rfl, twin, rfl⟩
  | cons deed rest ih =>
    obtain ⟨hdeed, hrest⟩ := List.forall_mem_cons.1 h
    obtain ⟨hanswer, hafter, hleft, hdiscreet⟩ := on_twin discreet twin hdeed
    obtain ⟨hanswers, hlast, hend⟩ := ih hdiscreet hafter hrest
    simp only [run, hanswer]
    rw [← hleft]
    exact ⟨congrArg _ hanswers, hlast, hend⟩

end Deed

namespace Used
variable {context : Context}

theorem reset_twin (used : Used [] context) :
    context.reset.Twin { settings := context.settings, gateway := context.gateway } := by
  obtain ⟨frames, kept, spare, hshape, _, hperm⟩ := used.shape
  obtain rfl : spare = [] := List.map_eq_nil_iff.1 hperm.eq_nil
  exact ⟨rfl, [], [], .blank hshape.reset .empty⟩

/-- After a reset no record is in use, and from then on the same is seen of whatever is done with
the context, and the same becomes of the workspace, as with a new context of these settings and this
gateway; the contexts are the same at all times but for the names of records. -/
theorem reset_anew (used : Used [] context) :
    context.reset.trace.pool.inUse = 0 ∧
      ∀ workspace : Workspace, workspace.Discreet →
        ∀ deeds : List Deed, (∀ deed ∈ deeds, deed.Discreet) →
          ∃ answers after after' left π,
            Deed.run workspace context.reset deeds = (answers, after, left) ∧
            Deed.run workspace { settings := context.settings, gateway := context.gateway } deeds =
              (answers, after', left) ∧
            after.Renamed π after' := by
  refine ⟨used.inUse_reset, fun workspace discreet deeds hdeeds => ?_⟩
  obtain ⟨hanswers, hafter, hleft⟩ := Deed.run_twin discreet used.reset_twin hdeeds
  obtain ⟨π, hπ⟩ := hafter.renamed
  refine ⟨_, _, (Deed.run workspace _ deeds).2.1, _, π, rfl, ?_, hπ⟩
  rw [hanswers, hleft]

end Used

/-! ### A context before and after a reset -/

/-- Trees with no more than discreet bodies: one tells whether its call is the outermost one, the
gets of the other fail on null. -/
def Workspace.discreet : Workspace where
  trees := #[.node (.host .outermost) [], .node .negate [some (.node (.property "x") [])]]

theorem Workspace.discreet_discreet : discreet.Discreet where
  trees := by
    intro tree htree
    obtain rfl | rfl : tree = .node (.host .outermost) [] ∨
        tree = .node .negate [some (.node (.property "x") [])] := by
      simpa [discreet] using htree
    · intro place hplace
      rw [List.mem_singleton.1 hplace]
      exact Body.discreet_outermost
    · exact Tree.discreet_of_isStandard rfl
  accessors := nofun

namespace Context

/-- In this context a record was pushed by hand, and a get has failed below it. -/
def busy : Context where
  settings := { trace := true }
  currentObject := some .null
  currentNode := some 1
  trace :=
    { pool :=
        { records := #[
            { node := 0, kind := .const, source := .null, setter := false, children := [1] },
            { node := 0, kind := .negate, source := .null, setter := false,
              failure := some "No such property `x` on null", parent := some 0, children := [2] },
            { node := 1, kind := .property, source := .null, setter := false,
              failure := some "No such property `x` on null", parent := some 1 }] }
      current := some 0
      root := some 0
      pending := some 2 }

theorem used_busy : Used [] busy := by
  have pushed := ((Used.fresh { trace := true } none).create 0 .const .null false rfl).push
    List.mem_cons_self
  exact pushed.get .discreet { tree := 1 } .null

/-- Its records were given back from the outermost on, so the innermost is handed out first. -/
theorem reset_busy : busy.reset =
    { settings := { trace := true }
      trace :=
        { pool :=
            { records := #[
                { node := 0, kind := .const, source := .null, setter := false, live := false },
                { node := 0, kind := .negate, source := .null, setter := false, live := false },
                { node := 1, kind := .property, source := .null, setter := false, live := false }]
              free := [2, 1, 0] } } } := by
  cbv

end Context

namespace Deed

/-- A record is pushed by hand, and below it both trees are used. -/
def nested : List Deed :=
  [.begin 0 .const .null false, .get { tree := 0 } .null, .get { tree := 1 } .null]

theorem discreet_nested : ∀ deed ∈ nested, deed.Discreet := by
  simp [nested, Discreet]

end Deed

/-- The busy context has one record in progress and three in use. After a reset it has none, and
what is done then is done alike in a new context, where the records are named otherwise. -/
theorem Context.reset_anew_busy :
    busy.trace.depth = 1 ∧ busy.trace.pool.inUse = 3 ∧ busy.reset.trace.pool.inUse = 0 ∧
      ∃ answers after after' left π,
        Deed.run .discreet busy.reset Deed.nested = (answers, after, left) ∧
        Deed.run .discreet { settings := { trace := true } } Deed.nested =
          (answers, after', left) ∧
        after.Renamed π after' ∧ after.trace.current = some 2 ∧ after'.trace.current = some 0 := by
  obtain ⟨hinUse, hlater⟩ := used_busy.reset_anew
  obtain ⟨answers, after, after', left, π, hrun, hrun', hrenamed⟩ :=
    hlater .discreet Workspace.discreet_discreet Deed.nested Deed.discreet_nested
  refine ⟨by decide, by decide, hinUse, answers, after, after', left, π, hrun, hrun', hrenamed,
    ?_, ?_⟩
  · rw [← congrArg (fun result => result.2.1.trace.current) hrun, reset_busy]
    decide +kernel
  · rw [← congrArg (fun result => result.2.1.trace.current) hrun']
    decide +kernel

/-! ### Bodies that look into ids -/

def Answer.text : Answer → String
  | .got (.ok (.ok value)) => value.debug {}
  | _ => ""

/-- Reads whether the outermost record in progress is the first of its pool. -/
def HostBody.first : HostBody where
  kind := .custom "First"
  read _ _ := .locate fun position => pure (.bool (position.root == some 0))

/-- One tree is such a body; the other adds to a text where the evaluation stands. -/
def Workspace.indiscreet : Workspace where
  trees := #[.node (.host .first) [], .node (.arithmetic .add)
    [some (.node (.const (.string "at ")) []),
      some (.node (.host (Probe.body
        { label := "p", kind := .custom "K", reading := .context })) [])]]

/-- A body may tell one id from another by what they are, and then it tells a context that was reset
from a new one: of each of the two trees, a get has another outcome. -/
theorem Context.reset_told : Used [] busy ∧ ∀ tree < 2,
    (Deed.run .indiscreet busy.reset [.get { tree } .null]).1 ≠
      (Deed.run .indiscreet { settings := busy.settings, gateway := busy.gateway }
        [.get { tree } .null]).1 := by
  have htext : ∀ tree < 2,
      (Deed.run .indiscreet busy.reset [.get { tree } .null]).1.map Answer.text ≠
        (Deed.run .indiscreet { settings := busy.settings, gateway := busy.gateway }
          [.get { tree } .null]).1.map Answer.text := by
    rw [reset_busy]
    decide +kernel
  exact ⟨used_busy, fun tree htree h => htext tree htree (congrArg (List.map Answer.text) h)⟩

end ObjectNavigation
