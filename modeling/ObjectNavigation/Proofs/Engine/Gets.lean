import ObjectNavigation.Proofs.Engine.Activation
import ObjectNavigation.Proofs.Node.Child

/-!
The gets that take place. Beside every use of a node stands the list of the gets that are begun
during it, in order (`Tree.gets`). A `Get` tells what was known about the constancy of its node when
it began and when it ended, what the node answered if it was asked, what came of its body if that
was run, and which gets were begun in the meantime. Gets that fail or are cut short are told like
all others, and so are those that accessors lead to (`Workspace.gets`).

What is not told does not take place: where a node is not said to be asked, or its body is not said
to be run, the evaluation does not depend on them (`Get.Shows`).
-/

namespace ObjectNavigation

/-- A get of a node by way of its constant. -/
structure Get where
  tree : TreeId
  node : NodeId
  source : Value
  before : Cell
  /-- What the node answered, if it was asked whether it is constant. -/
  asked : Option (Except Misuse (Except EvalError Bool))
  /-- What came of the body, or of the accessor in its place, if that was run. -/
  ran : Option (Except Misuse (Except EvalError Value))
  outcome : Except Misuse (Except EvalError Value)
  after : Cell
  /-- The gets begun during it, in order. -/
  inner : List Get

namespace Get

mutual

/-- The gets of one node among a get and those begun during it, in the order in which they began. -/
def ofNode (tree : TreeId) (node : NodeId) : Get → List Get
  | get@⟨home, id, _, _, _, _, _, _, inner⟩ =>
    if home = tree ∧ id = node then get :: allOfNode tree node inner else allOfNode tree node inner

def allOfNode (tree : TreeId) (node : NodeId) : List Get → List Get
  | [] => []
  | get :: rest => get.ofNode tree node ++ allOfNode tree node rest

end

variable {tree : TreeId} {node : NodeId}

theorem ofNode_of_eq {get : Get} (h : get.tree = tree ∧ get.node = node) :
    get.ofNode tree node = get :: allOfNode tree node get.inner := by
  cases get
  rw [ofNode, if_pos h]

theorem ofNode_of_ne {get : Get} (h : ¬(get.tree = tree ∧ get.node = node)) :
    get.ofNode tree node = allOfNode tree node get.inner := by
  cases get
  rw [ofNode, if_neg h]

end Get

structure Gets where
  get : Value → World → List Get := fun _ _ => []
  set : Value → Value → World → List Get := fun _ _ _ => []
  ask : Question → World → List Get := fun _ _ => []

def Eval.getsThen {α : Type} (act : Eval α) (gets : World → List Get)
    (next : Except EvalError α → World → List Get) (world : World) : List Get :=
  gets world ++
    match act world with
    | (.ok outcome, after) => next outcome after
    | (.error _, _) => []

/-- A method reaches no node, so no get is begun during a call. -/
def Script.gets {C α : Type} (reach : C → Handle) (inner : C → Gets) (gateway : Option Registry) :
    Script C α → World → List Get
  | .done _ => fun _ => []
  | .get child source next =>
    ((reach child).get source).getsThen ((inner child).get source) fun answer =>
      (next answer).gets reach inner gateway
  | .set child target value next =>
    ((reach child).set target value).getsThen ((inner child).set target value) fun answer =>
      (next answer).gets reach inner gateway
  | .ask child question next =>
    ((reach child).ask question).getsThen ((inner child).ask question) fun answer =>
      (next answer).gets reach inner gateway
  | .invoke call next =>
    (ObjectNavigation.invoke gateway call).getsThen (fun _ => []) fun answer =>
      (next answer).gets reach inner gateway
  | .look next => fun world => (next world.surface).gets reach inner gateway world
  | .locate next => fun world => (next world.context.position).gets reach inner gateway world
  | .alter change next => fun world =>
    next.gets reach inner gateway (world.withSurface (change world.surface))

namespace Engine

/-- What comes of `act` where no value is kept, and the gets begun during it. -/
def ranUnkept (tree : TreeId) (node : NodeId) (act : Eval Value) (acting : World → List Get)
    (world : World) : Option (Except Misuse (Except EvalError Value)) × List Get :=
  match (world.constants.cell tree node).value with
  | some _ => (none, [])
  | none => (some (act world).1, acting world)

/-- A get by way of the constant of the node, as `cached` makes it. -/
def cachedGet (tree : TreeId) (node : NodeId) (source : Value) (constant : Eval Bool)
    (act : Eval Value) (asking acting : World → List Get) (world : World) : Get :=
  let begun := { world with constants := world.constants.check tree node }
  let ended := cached tree node constant act world
  let get asked ran inner :=
    { tree, node, source, before := world.constants.cell tree node, asked, ran
      outcome := ended.1, after := ended.2.constants.cell tree node, inner }
  if (world.constants.cell tree node).checked then
    let (ran, inner) := ranUnkept tree node act acting world
    get none ran inner
  else
    match constant begun with
    | (.ok (.ok true), middle) =>
      get (some (.ok (.ok true))) (some (act middle).1) (asking begun ++ acting middle)
    | (.ok (.ok false), middle) =>
      let (ran, inner) := ranUnkept tree node act acting middle
      get (some (.ok (.ok false))) ran (asking begun ++ inner)
    | (answer, _) => get (some answer) none (asking begun)

def gets (env : Env) (enter : Entry → Gets) (tree : TreeId) (id : NodeId) (body : Body)
    (seat : Seat) (child : Nat → Option Handle) (inner : Nat → Gets) : Gets where
  get source world :=
    let constant := (body.ask seat .constant).run (reach body.kind child) env.gateway
    let asking := (body.ask seat .constant).gets (reach body.kind child) inner env.gateway
    let (act, acting) :=
      match substitute? env tree id body with
      | some accessor =>
        ((accessor.read source).run env.enter env.gateway,
          (accessor.read source).gets env.enter enter env.gateway)
      | none =>
        ((body.read seat source).run (reach body.kind child) env.gateway,
          (body.read seat source).gets (reach body.kind child) inner env.gateway)
    [cachedGet tree id source constant act asking acting
      ((Watched.entered id body.kind source false world).visit id source)]
  set target value world :=
    let acting :=
      match substitute? env tree id body with
      | some accessor => (accessor.assign target value).gets env.enter enter env.gateway
      | none => (body.assign seat target value).gets (reach body.kind child) inner env.gateway
    acting ((Watched.entered id body.kind target true world).visit id target)
  ask question := (body.ask seat question).gets (reach body.kind child) inner env.gateway

theorem cachedGet_eq (tree : TreeId) (node : NodeId) (source : Value) (constant : Eval Bool)
    (act : Eval Value) (asking acting : World → List Get) (world : World) :
    ∃ asked ran inner, cachedGet tree node source constant act asking acting world =
      { tree, node, source, before := world.constants.cell tree node, asked, ran
        outcome := (cached tree node constant act world).1
        after := (cached tree node constant act world).2.constants.cell tree node, inner } := by
  rw [cachedGet]
  dsimp only
  split
  next => exact ⟨_, _, _, rfl⟩
  next => split <;> exact ⟨_, _, _, rfl⟩

section
variable {tree : TreeId} {node : NodeId} {source : Value} {constant : Eval Bool} {act : Eval Value}
  {asking acting : World → List Get} {world : World}

/-- A node that is not said to be asked could have answered anything. -/
theorem cached_of_not_asked
    (h : (cachedGet tree node source constant act asking acting world).asked = none)
    (constant' : Eval Bool) :
    cached tree node constant' act world = cached tree node constant act world := by
  cases hchecked : (world.constants.cell tree node).checked with
  | true => simp [cached, hchecked]
  | false =>
    simp only [cachedGet, hchecked, Bool.false_eq_true, if_false] at h
    split at h <;> cases h

/-- A body that is not said to be run could have done anything. -/
theorem cached_of_not_run
    (h : (cachedGet tree node source constant act asking acting world).ran = none)
    (act' : Eval Value) :
    cached tree node constant act' world = cached tree node constant act world := by
  have hkept : ∀ world, (ranUnkept tree node act acting world).1 = none →
      kept tree node act' world = kept tree node act world := by
    intro world hran
    rw [ranUnkept] at hran
    rw [kept, kept]
    cases hvalue : (world.constants.cell tree node).value with
    | some value => rfl
    | none =>
      rw [hvalue] at hran
      cases hran
  cases hchecked : (world.constants.cell tree node).checked with
  | true =>
    simp only [cachedGet, hchecked, if_true] at h
    simp only [cached, hchecked, if_true]
    exact hkept world h
  | false =>
    simp only [cachedGet, hchecked, Bool.false_eq_true, if_false] at h
    simp only [cached, hchecked, Bool.false_eq_true, if_false, Eval.andThen]
    rcases hask : constant { world with constants := world.constants.check tree node } with
      ⟨misuse | error | _ | _, middle⟩
    · rfl
    · rfl
    · rw [hask] at h
      exact hkept middle h
    · rw [hask] at h
      cases h

end

/-- The get of a node that is asked in this way and acts like this if no value is kept for it. -/
def getting (tree : TreeId) (node : NodeId) (kind : Kind) (source : Value) (constant : Eval Bool)
    (act : Eval Value) : Eval Value :=
  traced node kind source false some (visiting node source (cached tree node constant act))

end Engine

/-- A get in this state could have been answered anything where the node is not said to be asked,
and its body could have done anything where it is not said to be run. -/
structure Get.Shows (get : Get) (kind : Kind) (constant : Eval Bool) (act : Eval Value)
    (world : World) : Prop where
  asked : get.asked = none → ∀ constant',
    Engine.getting get.tree get.node kind get.source constant' act world =
      Engine.getting get.tree get.node kind get.source constant act world
  ran : get.ran = none → ∀ act',
    Engine.getting get.tree get.node kind get.source constant act' world =
      Engine.getting get.tree get.node kind get.source constant act world

theorem Engine.exists_getting (tree : TreeId) (node : NodeId) (kind : Kind) (source : Value)
    (constant : Eval Bool) (act : Eval Value) (asking acting : World → List Get) (world : World) :
    ∃ get, [cachedGet tree node source constant act asking acting
        ((Watched.entered node kind source false world).visit node source)] = [get] ∧
      get.tree = tree ∧ get.node = node ∧ get.source = source ∧
      get.outcome = (getting tree node kind source constant act world).1 ∧
      get.Shows kind constant act world := by
  obtain ⟨asked, ran, inner, hget⟩ := cachedGet_eq tree node source constant act asking acting
    ((Watched.entered node kind source false world).visit node source)
  obtain ⟨trace, htraced⟩ := Watched.traced_eq_entered node kind source false some
    (visiting node source (cached tree node constant act)) world
  have hnotAsked := @cached_of_not_asked tree node source constant act asking acting
    ((Watched.entered node kind source false world).visit node source)
  have hnotRun := @cached_of_not_run tree node source constant act asking acting
    ((Watched.entered node kind source false world).visit node source)
  rw [hget] at hnotAsked hnotRun
  rw [hget, getting, htraced]
  refine ⟨_, rfl, rfl, rfl, rfl, rfl, fun h constant' => ?_, fun h act' => ?_⟩
  · exact Watched.traced_congr (hnotAsked h constant')
  · exact Watched.traced_congr (hnotRun h act')

namespace Tree

mutual

def gets (env : Env) (enter : Entry → Gets) (home : TreeId) (id : NodeId) : Tree → Gets
  | .node body slots =>
    Engine.gets env enter home id body (seat (.node body slots)) (child env home (id + 1) slots)
      (childGets env enter home (id + 1) slots)

def childGets (env : Env) (enter : Entry → Gets) (home : TreeId) (next : NodeId) :
    List (Option Tree) → Nat → Gets
  | [], _ => {}
  | none :: _, 0 => {}
  | some first :: _, 0 => first.gets env enter home next
  | none :: rest, index + 1 => childGets env enter home next rest index
  | some first :: rest, index + 1 => childGets env enter home (next + first.size) rest index

end

def getsAt (env : Env) (enter : Entry → Gets) (home : TreeId) (tree : Tree) (id : NodeId) : Gets :=
  match tree.lookUp id with
  | .ok place => place.subtree.gets env enter home id
  | .error _ => {}

def entranceGets (env : Env) (enter : Entry → Gets) (home : TreeId) (tree : Tree) : Gets :=
  match env.accessor home 0 with
  | none => tree.gets env enter home 0
  | some accessor =>
    { tree.gets env enter home 0 with
      get := fun source => (accessor.read source).gets env.enter enter env.gateway
      set := fun target value => (accessor.assign target value).gets env.enter enter env.gateway }

theorem childGets_eq (env : Env) (enter : Entry → Gets) (home : TreeId) (next : NodeId)
    (slots : List (Option Tree)) (index : Nat) :
    childGets env enter home next slots index =
      ((child? next slots index).map fun entry => entry.2.gets env enter home entry.1).getD {} :=
  pick_eq (childGets env enter home)
    (fun found => (found.map fun entry => entry.2.gets env enter home entry.1).getD {})
    (fun _ _ => childGets.eq_1 ..) (fun _ _ => rfl) (fun _ _ _ => rfl) (fun _ _ _ => rfl)
    (fun _ _ _ _ => rfl) next slots index

/-- A get of a node is one get, with the outcome of the evaluation. -/
theorem gets_get (env : Env) (enter : Entry → Gets) (home : TreeId) (id : NodeId) (tree : Tree)
    (source : Value) (world : World) :
    ∃ get, (tree.gets env enter home id).get source world = [get] ∧ get.tree = home ∧
      get.node = id ∧ get.source = source ∧
      get.outcome = ((tree.handle env home id).get source world).1 ∧
      ∃ kind act, (tree.handle env home id).get source =
          Engine.getting home id kind source ((tree.handle env home id).ask .constant) act ∧
        get.Shows kind ((tree.handle env home id).ask .constant) act world := by
  cases tree with
  | node body slots =>
    simp only [gets, handle, Engine.gets, Engine.node]
    cases Engine.substitute? env home id body <;>
    · obtain ⟨get, hget, htree, hnode, hsource, houtcome, hshows⟩ :=
        Engine.exists_getting home id body.kind source _ _ _ _ world
      exact ⟨get, hget, htree, hnode, hsource, houtcome, _, _, rfl, hshows⟩

end Tree

namespace Workspace

def gets (workspace : Workspace) (gateway : Option Registry) : Nat → Entry → Gets
  | 0, _ => {}
  | depth + 1, entry =>
    match workspace.trees[entry.tree]? with
    | none => {}
    | some tree =>
      let env : Env :=
        { accessor := workspace.accessor?, gateway, enter := workspace.enter gateway depth }
      match entry.node with
      | none => tree.entranceGets env (workspace.gets gateway depth) entry.tree
      | some node => tree.getsAt env (workspace.gets gateway depth) entry.tree node

end Workspace
end ObjectNavigation
