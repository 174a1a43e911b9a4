import ObjectNavigation.Proofs.Node.Child
import ObjectNavigation.Workspace

/-!
What takes place during an evaluation. An `Activation` is one get or set of a node, with the traces
before and after it and the activations nested in it. `Watched` computations tell which ones take
place; a watched tree is evaluated by the same layers as a tree, and without its log it is the tree
(`handle_watched`).

A computation that is cut short is not followed further, so its activations are not told.
-/

namespace ObjectNavigation

/-- A get or set of a node as it took place. -/
structure Activation where
  node : NodeId
  kind : Kind
  /-- The source of a get, the target of a set. -/
  object : Value
  setter : Bool
  /-- Its record, if calls were recorded when it began. -/
  record : Option CallId
  before : Trace
  after : Trace
  outcome : Except EvalError (Option Value)
  /-- Whether the record of an outermost call was to be retained when it ended. -/
  keep : Bool
  /-- What took place during it, in order. -/
  inner : List Activation

namespace Activation

mutual

/-- An activation and all that took place during it. -/
def all : Activation → List Activation
  | activation@⟨_, _, _, _, _, _, _, _, _, inner⟩ => activation :: allOf inner

def allOf : List Activation → List Activation
  | [] => []
  | activation :: rest => activation.all ++ allOf rest

end

mutual

/-- The recorded activations that are not inside another recorded one. -/
def outermost : Activation → List Activation
  | activation@⟨_, _, _, _, record, _, _, _, _, inner⟩ =>
    match record with
    | some _ => [activation]
    | none => outermostOf inner

def outermostOf : List Activation → List Activation
  | [] => []
  | activation :: rest => activation.outermost ++ outermostOf rest

end

def failed (activation : Activation) : Bool :=
  match activation.outcome with
  | .ok _ => false
  | .error _ => true

end Activation

structure Watched (α : Type) where
  act : Eval α
  log : World → List Activation

namespace Watched
variable {α β : Type}

def silent (act : Eval α) : Watched α where
  act
  log _ := []

def andThen (first : Watched α) (next : Except EvalError α → Watched β) : Watched β where
  act := first.act.andThen fun outcome => (next outcome).act
  log world := first.log world ++
    match first.act world with
    | (.ok outcome, after) => (next outcome).log after
    | (.error _, _) => []

def choose (pick : World → Watched α) : Watched α where
  act world := (pick world).act world
  log world := (pick world).log world

def within (change : World → World) (watched : Watched α) : Watched α where
  act world := watched.act (change world)
  log world := watched.log (change world)

/-! ### The layers around a body -/

/-- The state in which a call acts: its record, if there is one, is current. -/
def entered (node : NodeId) (kind : Kind) (source : Value) (setter : Bool) (world : World) :
    World :=
  if world.context.settings.trace then
    let (id, pool) := world.context.trace.pool.create node kind source setter
    world.withTrace (({ world.context.trace with pool }).push id)
  else world

theorem entered_eq_withTrace (node : NodeId) (kind : Kind) (source : Value) (setter : Bool)
    (world : World) :
    ∃ trace, entered node kind source setter world = world.withTrace trace := by
  rw [entered]
  split
  next => exact ⟨_, rfl⟩
  next => exact ⟨world.context.trace, rfl⟩

/-- A recorded call does what it does where its record is current, and then changes the trace. -/
theorem traced_eq_entered (node : NodeId) (kind : Kind) (source : Value) (setter : Bool)
    (result : α → Option Value) (act : Eval α) (world : World) :
    ∃ trace, Engine.traced node kind source setter result act world =
      ((act (entered node kind source setter world)).1,
        (act (entered node kind source setter world)).2.withTrace trace) := by
  rw [Engine.traced, entered]
  split
  next =>
    simp only [Eval.andThen]
    rcases act _ with ⟨misuse | outcome, after⟩
    · exact ⟨after.context.trace, rfl⟩
    · exact ⟨_, rfl⟩
  next => exact ⟨(act world).2.context.trace, rfl⟩

theorem traced_congr {node : NodeId} {kind : Kind} {source : Value} {setter : Bool}
    {result : α → Option Value} {act act' : Eval α} {world : World}
    (h : act (entered node kind source setter world) =
      act' (entered node kind source setter world)) :
    Engine.traced node kind source setter result act world =
      Engine.traced node kind source setter result act' world := by
  rw [entered] at h
  rw [Engine.traced, Engine.traced]
  split at h
  next htrace =>
    rw [if_pos htrace, if_pos htrace]
    simp only [Eval.andThen, h]
  next htrace => rw [if_neg htrace, if_neg htrace, h]

def record? (node : NodeId) (kind : Kind) (source : Value) (setter : Bool) (world : World) :
    Option CallId :=
  if world.context.settings.trace then
    some (world.context.trace.pool.create node kind source setter).1
  else none

def traced (node : NodeId) (kind : Kind) (source : Value) (setter : Bool)
    (result : α → Option Value) (inner : Watched α) : Watched α where
  act := Engine.traced node kind source setter result inner.act
  log world :=
    match Engine.traced node kind source setter result inner.act world with
    | (.error _, _) => []
    | (.ok outcome, after) =>
      [{ node, kind, object := source, setter
         record := record? node kind source setter world
         before := world.context.trace
         after := after.context.trace
         outcome := outcome.map result
         keep := after.context.settings.keep
         inner := inner.log (entered node kind source setter world) }]

def visiting (node : NodeId) (object : Value) (act : Watched α) : Watched α :=
  act.within fun world => world.visit node object

def kept (tree : TreeId) (node : NodeId) (act : Watched Value) : Watched Value :=
  choose fun world =>
    match (world.constants.cell tree node).value with
    | some value => silent (.finish (.ok value))
    | none => act

def keeping (tree : TreeId) (node : NodeId) (act : Watched Value) : Watched Value :=
  act.andThen fun
    | .error error => silent (.finish (.error error))
    | .ok value => silent fun after =>
      let constants := after.constants.keep tree node value
      (.ok (.ok ((constants.cell tree node).value.getD value)), { after with constants })

def cached (tree : TreeId) (node : NodeId) (constant : Watched Bool) (act : Watched Value) :
    Watched Value :=
  choose fun world =>
    if (world.constants.cell tree node).checked then kept tree node act
    else
      (constant.andThen fun
        | .error error => silent (.finish (.error error))
        | .ok true => keeping tree node act
        | .ok false => kept tree node act).within fun world =>
          { world with constants := world.constants.check tree node }

theorem act_kept (tree : TreeId) (node : NodeId) (act : Watched Value) :
    (kept tree node act).act = Engine.kept tree node act.act := by
  funext world
  simp only [kept, choose, Engine.kept]
  cases (world.constants.cell tree node).value <;> rfl

theorem act_keeping (tree : TreeId) (node : NodeId) (act : Watched Value) :
    (keeping tree node act).act = Engine.keeping tree node act.act := by
  simp only [keeping, andThen, Engine.keeping]
  congr 1
  funext outcome
  cases outcome <;> rfl

theorem act_cached (tree : TreeId) (node : NodeId) (constant : Watched Bool)
    (act : Watched Value) :
    (cached tree node constant act).act = Engine.cached tree node constant.act act.act := by
  funext world
  simp only [cached, choose, Engine.cached]
  split
  next => rw [act_kept]
  next =>
    simp only [within, andThen]
    congr 2
    funext outcome
    rcases outcome with error | answer
    · rfl
    · cases answer with
      | false => exact act_kept tree node act
      | true => exact act_keeping tree node act

end Watched

structure WatchedHandle where
  get : Value → Watched Value
  set : Value → Value → Watched Unit
  ask : Question → Watched Bool

namespace WatchedHandle

def handle (watched : WatchedHandle) : Handle where
  get source := (watched.get source).act
  set target value := (watched.set target value).act
  ask question := (watched.ask question).act

def silent (handle : Handle) : WatchedHandle where
  get source := .silent (handle.get source)
  set target value := .silent (handle.set target value)
  ask question := .silent (handle.ask question)

@[simp] theorem handle_silent (handle : Handle) : (silent handle).handle = handle := rfl

theorem handle_eq {watched : WatchedHandle} {handle : Handle}
    (get : ∀ source, (watched.get source).act = handle.get source)
    (set : ∀ target value, (watched.set target value).act = handle.set target value)
    (ask : ∀ question, (watched.ask question).act = handle.ask question) :
    watched.handle = handle := by
  cases handle
  simp only [WatchedHandle.handle, Handle.mk.injEq]
  exact ⟨funext get, funext fun target => funext (set target), funext ask⟩

end WatchedHandle

def Script.watch {C α : Type} (reach : C → WatchedHandle) (gateway : Option Registry) :
    Script C α → Watched α
  | .done outcome => .silent (.finish outcome)
  | .get child source next =>
    ((reach child).get source).andThen fun answer => (next answer).watch reach gateway
  | .set child target value next =>
    ((reach child).set target value).andThen fun answer => (next answer).watch reach gateway
  | .ask child question next =>
    ((reach child).ask question).andThen fun answer => (next answer).watch reach gateway
  | .invoke call next =>
    (Watched.silent (ObjectNavigation.invoke gateway call)).andThen fun answer =>
      (next answer).watch reach gateway
  | .look next => .choose fun world => (next world.surface).watch reach gateway
  | .locate next => .choose fun world => (next world.context.position).watch reach gateway
  | .alter change next =>
    (next.watch reach gateway).within fun world => world.withSurface (change world.surface)

theorem Script.act_watch {C α : Type} (reach : C → WatchedHandle) (gateway : Option Registry)
    (script : Script C α) :
    (script.watch reach gateway).act = script.run (fun child => (reach child).handle) gateway := by
  induction script with
  | done outcome => rfl
  | get child source next ih => simp only [watch, run, Watched.andThen, ih]; rfl
  | set child target value next ih => simp only [watch, run, Watched.andThen, ih]; rfl
  | ask child question next ih => simp only [watch, run, Watched.andThen, ih]; rfl
  | invoke call next ih => simp only [watch, run, Watched.andThen, ih]; rfl
  | look next ih => simp only [watch, run, Watched.choose, ih]
  | locate next ih => simp only [watch, run, Watched.choose, ih]
  | alter change next ih => simp only [watch, run, Watched.within, ih]

/-! ### Watched trees -/

namespace Watched

def reach (kind : Kind) (child : Nat → Option WatchedHandle) (index : Nat) : WatchedHandle :=
  match child index with
  | some handle => handle
  | none => .silent (.absent (.missingChild kind index))

/-- A node whose children are given. Accessors reach what `enter` names. -/
def node (env : Env) (enter : Entry → WatchedHandle) (tree : TreeId) (id : NodeId) (body : Body)
    (seat : Seat) (child : Nat → Option WatchedHandle) : WatchedHandle where
  get source :=
    traced id body.kind source false some <| visiting id source <|
      cached tree id ((body.ask seat .constant).watch (reach body.kind child) env.gateway) <|
        match Engine.substitute? env tree id body with
        | some accessor => (accessor.read source).watch enter env.gateway
        | none => (body.read seat source).watch (reach body.kind child) env.gateway
  set target value :=
    traced id body.kind target true (fun _ => none) <| visiting id target <|
      match Engine.substitute? env tree id body with
      | some accessor => (accessor.assign target value).watch enter env.gateway
      | none => (body.assign seat target value).watch (reach body.kind child) env.gateway
  ask question := (body.ask seat question).watch (reach body.kind child) env.gateway

theorem handle_reach (kind : Kind) (child : Nat → Option WatchedHandle) :
    (fun index => (reach kind child index).handle) =
      Engine.reach kind fun index => (child index).map WatchedHandle.handle := by
  funext index
  cases h : child index <;> simp [reach, Engine.reach, h]

theorem handle_node (env : Env) (enter : Entry → WatchedHandle)
    (henter : (fun entry => (enter entry).handle) = env.enter) (tree : TreeId) (id : NodeId)
    (body : Body) (seat : Seat) (child : Nat → Option WatchedHandle) :
    (node env enter tree id body seat child).handle =
      Engine.node env tree id body seat fun index => (child index).map WatchedHandle.handle := by
  refine WatchedHandle.handle_eq (fun source => ?_) (fun target value => ?_) fun question => ?_
  · simp only [node, Engine.node, traced, visiting, within, act_cached, Script.act_watch,
      handle_reach]
    congr 1
    funext world
    simp only [Engine.visiting]
    cases h : Engine.substitute? env tree id body with
    | none => simp only [Script.act_watch, handle_reach]
    | some accessor => simp only [Script.act_watch, henter]
  · simp only [node, Engine.node, traced, visiting, within]
    congr 1
    funext world
    simp only [Engine.visiting]
    cases h : Engine.substitute? env tree id body with
    | none => simp only [Script.act_watch, handle_reach]
    | some accessor => simp only [Script.act_watch, henter]
  · simp only [node, Engine.node, Script.act_watch, handle_reach]

end Watched

namespace Tree

mutual

def watched (env : Env) (enter : Entry → WatchedHandle) (home : TreeId) (id : NodeId) :
    Tree → WatchedHandle
  | .node body slots =>
    Watched.node env enter home id body (seat (.node body slots))
      (watchedChild env enter home (id + 1) slots)

def watchedChild (env : Env) (enter : Entry → WatchedHandle) (home : TreeId) (next : NodeId) :
    List (Option Tree) → Nat → Option WatchedHandle
  | [], _ => none
  | none :: _, 0 => none
  | some first :: _, 0 => some (first.watched env enter home next)
  | none :: rest, index + 1 => watchedChild env enter home next rest index
  | some first :: rest, index + 1 =>
    watchedChild env enter home (next + first.size) rest index

end

def watchedAt (env : Env) (enter : Entry → WatchedHandle) (home : TreeId) (tree : Tree)
    (id : NodeId) : WatchedHandle :=
  match tree.lookUp id with
  | .ok place => place.subtree.watched env enter home id
  | .error misuse => .silent (.stray misuse)

def watchedEntrance (env : Env) (enter : Entry → WatchedHandle) (home : TreeId) (tree : Tree) :
    WatchedHandle :=
  match env.accessor home 0 with
  | none => tree.watched env enter home 0
  | some accessor =>
    { tree.watched env enter home 0 with
      get := fun source => (accessor.read source).watch enter env.gateway
      set := fun target value => (accessor.assign target value).watch enter env.gateway }

theorem child_eq (env : Env) (home : TreeId) (next : NodeId) (slots : List (Option Tree))
    (index : Nat) :
    child env home next slots index =
      (child? next slots index).map fun entry => entry.2.handle env home entry.1 :=
  pick_eq (child env home) (Option.map fun entry => entry.2.handle env home entry.1)
    (fun _ _ => child.eq_1 ..) (fun _ _ => rfl) (fun _ _ _ => rfl) (fun _ _ _ => rfl)
    (fun _ _ _ _ => rfl) next slots index

theorem watchedChild_eq (env : Env) (enter : Entry → WatchedHandle) (home : TreeId)
    (next : NodeId) (slots : List (Option Tree)) (index : Nat) :
    watchedChild env enter home next slots index =
      (child? next slots index).map fun entry => entry.2.watched env enter home entry.1 :=
  pick_eq (watchedChild env enter home)
    (Option.map fun entry => entry.2.watched env enter home entry.1)
    (fun _ _ => watchedChild.eq_1 ..) (fun _ _ => rfl) (fun _ _ _ => rfl) (fun _ _ _ => rfl)
    (fun _ _ _ _ => rfl) next slots index

section
variable {env : Env} {enter : Entry → WatchedHandle}

theorem handle_watched (henter : (fun entry => (enter entry).handle) = env.enter)
    (home : TreeId) (id : NodeId) (tree : Tree) :
    (tree.watched env enter home id).handle = tree.handle env home id := by
  induction id, tree using child_induction with
  | node id body slots ih =>
    simp only [watched, handle]
    rw [Watched.handle_node env enter henter]
    congr 1
    funext index
    rw [watchedChild_eq, child_eq, Option.map_map]
    exact Option.map_congr (ih index)

theorem handle_watchedAt (henter : (fun entry => (enter entry).handle) = env.enter)
    (home : TreeId) (tree : Tree) (id : NodeId) :
    (tree.watchedAt env enter home id).handle = tree.handleAt env home id := by
  unfold watchedAt handleAt
  cases tree.lookUp id with
  | error misuse => rfl
  | ok place => exact handle_watched henter home id place.subtree

theorem handle_watchedEntrance (henter : (fun entry => (enter entry).handle) = env.enter)
    (home : TreeId) (tree : Tree) :
    (tree.watchedEntrance env enter home).handle = tree.entrance env home := by
  unfold watchedEntrance entrance
  cases env.accessor home 0 with
  | none => exact handle_watched henter home 0 tree
  | some accessor =>
    have hroot := handle_watched henter home 0 tree
    refine WatchedHandle.handle_eq (fun source => ?_) (fun target value => ?_) fun question => ?_
    · rw [Script.act_watch, henter]
    · rw [Script.act_watch, henter]
    · rw [← hroot]
      rfl

end

end Tree

namespace Workspace

def watched (workspace : Workspace) (gateway : Option Registry) : Nat → Entry → WatchedHandle
  | 0, _ => .silent (.stray .endlessDelegation)
  | depth + 1, entry =>
    match workspace.trees[entry.tree]? with
    | none => .silent (.stray .noSuchTree)
    | some tree =>
      let env : Env :=
        { accessor := workspace.accessor?, gateway, enter := workspace.enter gateway depth }
      match entry.node with
      | none => tree.watchedEntrance env (workspace.watched gateway depth) entry.tree
      | some node => tree.watchedAt env (workspace.watched gateway depth) entry.tree node

theorem handle_watched (workspace : Workspace) (gateway : Option Registry) (depth : Nat)
    (entry : Entry) :
    (workspace.watched gateway depth entry).handle = workspace.enter gateway depth entry := by
  induction depth generalizing entry with
  | zero => rfl
  | succ depth ih =>
    simp only [watched, enter]
    cases workspace.trees[entry.tree]? with
    | none => rfl
    | some tree =>
      cases entry.node with
      | none => exact Tree.handle_watchedEntrance (funext ih) entry.tree tree
      | some node => exact Tree.handle_watchedAt (funext ih) entry.tree tree node

end Workspace
end ObjectNavigation
