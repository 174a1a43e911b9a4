import ObjectNavigation.Proofs.Engine.Settling
import ObjectNavigation.Proofs.Engine.Tracing
import ObjectNavigation.Proofs.Value.Handles

/-!
Assignment through a tree of the library that calls no methods. A get leaves the graph as it is. An
assignment fails and leaves the graph as it is, or it writes one field of one object: the field
named by the last property on the way, of the object to which the links before it lead
(`Tree.assignment_is_atomic`). The links are read through the tree in any case, so the graph that
they are read from is the one that was there before.
-/

namespace ObjectNavigation

def Body.isPassive : Body → Bool
  | method _ | staticMethod _ _ | host _ => false
  | _ => true

def Body.within (size : Nat) : Body → Bool
  | const value => value.within size
  | _ => true

theorem Body.isStandard_of_isPassive (body : Body) (h : body.isPassive = true) :
    body.isStandard = true := by
  cases body with
  | host host => cases h
  | _ => rfl

/-- No value that is kept holds an object that is not among the first ones. -/
def Constants.Within (size : Nat) (constants : Constants) : Prop :=
  ∀ tree node value, (constants.cell tree node).value = some value → value.within size = true

namespace Constants.Within
variable {size : Nat} {constants : Constants}

theorem check (h : constants.Within size) (tree : TreeId) (node : NodeId) :
    (constants.check tree node).Within size := by
  intro other place held hheld
  rw [Constants.check, cell_put] at hheld
  split at hheld
  next => exact h tree node held hheld
  next => exact h other place held hheld

theorem keep (h : constants.Within size) (tree : TreeId) (node : NodeId) {value : Value}
    (hvalue : value.within size = true) : (constants.keep tree node value).Within size := by
  rw [Constants.keep]
  split
  next => exact h
  next =>
    intro other place held hheld
    rw [cell_put] at hheld
    split at hheld
    next =>
      cases hheld
      exact hvalue
    next => exact h other place held hheld

end Constants.Within

/-- Neither a field nor a value that is kept holds an object that is not there. -/
structure World.Closed (world : World) : Prop where
  heap : world.heap.Closed
  constants : world.constants.Within world.heap.objects.size

/-- The state without flags and records, and without the note of the latest call. -/
def World.bare (world : World) : World :=
  world.untraced.visit 0 .null

/-! ### Gets -/

/-- A property of values that bodies without methods hand on, where the objects are these. -/
structure Inherited (objects : Array Record) (good : Value → Prop) : Prop where
  field : ∀ {heap : Heap} {o : ObjectId} {name : String} {value : Value},
    heap.objects = objects → heap.get? o name = some value → good value
  fold : ∀ {op : Operation} {heap : Heap} {first value : Value} {rest : List Value},
    good first → Body.fold op heap first rest = .ok value → good value
  negate : ∀ {heap : Heap} {operand value : Value},
    operand.negate heap = .ok value → good value
  list : ∀ {id : ListId} {items : List Value}, (∀ item ∈ items, good item) → good (.list id items)

theorem Collects.good {good : Value → Prop} {indices : List Nat} {values : List Value}
    (h : Collects (fun _ outcome => ∀ value, outcome = .ok value → good value) indices
      (.ok values)) :
    ∀ value ∈ values, good value := by
  generalize houtcome : Except.ok values = outcome at h
  induction h generalizing values with
  | nil =>
    cases houtcome
    simp
  | first | later => cases houtcome
  | cons h _ ih =>
    cases houtcome
    exact List.forall_mem_cons.2 ⟨h _ rfl, ih rfl⟩

section Reading
variable {objects : Array Record} {property : Constants → Prop} {good : Value → Prop}
  {reach : Nat → Handle} {gateway : Option Registry}
  (hreach : ∀ index source, good source → ((reach index).get source).Settles objects property
    fun outcome => ∀ value, outcome = .ok value → good value)
include hreach

theorem Body.settles_walk {source : Value} (hsource : good source) (indices : List Nat) :
    ((indices.foldlM (fun value index => Script.getValue index value) source).run reach
      gateway).Settles objects property
        fun outcome => ∀ value, outcome = .ok value → good value := by
  induction indices generalizing source with
  | nil =>
    apply Eval.Settles.done
    rintro _ ⟨⟩
    exact hsource
  | cons index rest ih =>
    rw [List.foldlM_cons]
    apply (Eval.Settles.getValue (hreach index source hsource)).bind
    · intro error _ value hvalue
      cases hvalue
    · intro value hvalue
      exact ih (hvalue value rfl)

/-- A body that calls no method leaves the objects as they are, and finds good values among good
ones. -/
theorem Body.settles_read (inherited : Inherited objects good) {body : Body}
    (passive : body.isPassive = true) (constant : ∀ value, body = .const value → good value)
    (seat : Seat) {source : Value} (hsource : good source) :
    ((body.read seat source).run reach gateway).Settles objects property
      fun outcome => ∀ value, outcome = .ok value → good value := by
  have hok : ∀ {value : Value}, good value →
      ∀ found, (.ok value : Except EvalError Value) = .ok found → good found := by
    rintro value hvalue _ ⟨⟩
    exact hvalue
  have herror : ∀ {error : EvalError},
      ∀ found, (.error error : Except EvalError Value) = .ok found → good found := by
    intro error found hfound
    cases hfound
  have hoperands : ((operands seat source).run reach gateway).Settles objects property
      (Collects (fun _ outcome => ∀ value, outcome = .ok value → good value)
        (List.range seat.slots)) :=
    .mapM fun index _ => hreach index source hsource
  cases body with
  | const value => exact .done (hok (constant value rfl))
  | property name =>
    apply Eval.Settles.heap
    intro held hheld
    cases source with
    | object o =>
      dsimp only
      cases hfield : held.get? o name with
      | none => exact .done herror
      | some value => exact .done (hok (inherited.field hheld hfield))
    | _ => exact .done herror
  | chain => exact settles_walk hreach hsource (List.range seat.slots)
  | arithmetic op =>
    apply hoperands.bind
    · intro error _
      exact herror
    · intro values hvalues
      cases values with
      | nil => exact .done herror
      | cons value rest =>
        apply Eval.Settles.heap
        intro held _
        apply Eval.Settles.done
        intro result hresult
        exact inherited.fold (hvalues.good value List.mem_cons_self) hresult
  | negate =>
    apply (Eval.Settles.getValue (hreach 0 source hsource)).bind
    · intro error _
      exact herror
    · intro value _
      apply Eval.Settles.heap
      intro held _
      apply Eval.Settles.done
      intro result hresult
      exact inherited.negate hresult
  | list =>
    apply hoperands.bind
    · intro error _
      exact herror
    · intro values hvalues
      apply Eval.Settles.newList
      intro id
      exact hok (inherited.list hvalues.good)
  | method _ | staticMethod _ _ | host _ => cases passive

end Reading

def Finds (size : Nat) (outcome : Except EvalError Value) : Prop :=
  ∀ value, outcome = .ok value → value.within size = true

theorem Finds.ok {size : Nat} {value : Value} (h : value.within size = true) :
    Finds size (.ok value) := by
  rintro _ ⟨⟩
  exact h

theorem Finds.error {size : Nat} (error : EvalError) : Finds size (.error error) := by
  intro value h
  cases h

theorem Heap.Closed.inherited {heap : Heap} (closed : heap.Closed) :
    Inherited heap.objects fun value => value.within heap.objects.size = true where
  field hobjects hfield := by
    rw [Heap.get?_eq_of_objects_eq hobjects] at hfield
    exact closed _ _ _ hfield
  fold hfirst hfold := Body.within_of_fold hfirst hfold
  negate hnegate := Value.within_of_isObjectFree (Value.isObjectFree_of_negate hnegate)
  list hitems := by
    rw [Value.within]
    exact Value.allWithin_iff.2 hitems

namespace Tree
variable {env : Env} {home : TreeId}

theorem settles_reach {objects : Array Record} {property : Constants → Prop}
    {result : Except EvalError Value → Prop} (failed : ∀ error, result (.error error)) (kind : Kind)
    {next : NodeId} {slots : List (Option Tree)} {index : Nat} {source : Value}
    (hchild : ∀ entry ∈ child? next slots index,
      ((entry.2.handle env home entry.1).get source).Settles objects property result) :
    ((Engine.reach kind (child env home next slots) index).get source).Settles objects property
      result := by
  rw [Engine.reach, child_eq]
  cases hentry : child? next slots index with
  | none =>
    intro world hobjects hconstants
    exact ⟨_, world, rfl, failed _, hobjects, hconstants⟩
  | some entry => exact hchild entry hentry

theorem settles_get (plain : env.Plain home) {heap : Heap} (closed : heap.Closed) (id : NodeId)
    {tree : Tree} (passive : tree.all Body.isPassive = true)
    (hwithin : tree.all (Body.within heap.objects.size) = true) {source : Value}
    (hsource : source.within heap.objects.size = true) :
    ((tree.handle env home id).get source).Settles heap.objects
      (Constants.Within heap.objects.size) (Finds heap.objects.size) := by
  induction id, tree using child_induction generalizing source with
  | node id body slots ih =>
    rw [handle_get (Engine.substitute?_eq_none plain id body)]
    apply Eval.Settles.traced
    apply Eval.Settles.visiting
    have standard := all_imp Body.isStandard_of_isPassive passive
    apply Eval.Settles.cached
      (fun constants value hconstants hvalue => .ok (hconstants home id value hvalue))
      (ask_constant_of_standard standard env home id)
      (fun constants hconstants => hconstants.check home id)
      (fun _ constants value hconstants hvalue => hconstants.keep home id (hvalue value rfl))
    rw [all, Bool.and_eq_true] at passive hwithin
    have constant : ∀ value, body = .const value → value.within heap.objects.size = true := by
      rintro value rfl
      exact hwithin.1
    refine Body.settles_read (fun index source hsource => ?_) closed.inherited passive.1 constant _
      hsource
    apply settles_reach Finds.error
    intro entry hentry
    exact ih index entry hentry (all_child passive.2 hentry) (all_child hwithin.2 hentry) hsource

/-! ### The way to the field -/

/-- The links on the way to the property that an assignment to the node writes, and its name. -/
inductive Assigns : NodeId → Tree → List (NodeId × Tree) → String → Prop where
  | property {id : NodeId} {name : String} {slots : List (Option Tree)} :
      Assigns id (.node (.property name) slots) [] name
  | chain {id : NodeId} {slots : List (Option Tree)} {links way : List (NodeId × Tree)}
      {last : NodeId × Tree} {name : String}
      (before : (List.range (slots.length - 1)).mapM (child? (id + 1) slots) = some links)
      (hlast : child? (id + 1) slots (slots.length - 1) = some last)
      (h : Assigns last.1 last.2 way name) : Assigns id (.node .chain slots) (links ++ way) name

/-- The value at the end of the links: each is evaluated on the value of the one before. -/
def follow (env : Env) (home : TreeId) : List (NodeId × Tree) → Value → Eval Value
  | [], source => .finish (.ok source)
  | link :: rest, source =>
    ((link.2.handle env home link.1).get source).andThen fun
      | .ok value => follow env home rest value
      | .error error => .finish (.error error)

theorem follow_append_eq (links way : List (NodeId × Tree)) (source : Value) :
    follow env home (links ++ way) source = (follow env home links source).andThen fun
      | .ok value => follow env home way value
      | .error error => .finish (.error error) := by
  induction links generalizing source with
  | nil => rfl
  | cons link rest ih =>
    rw [List.cons_append, follow, follow, Eval.andThen_andThen]
    congr 1
    funext outcome
    cases outcome with
    | error error => rfl
    | ok value => exact ih value

theorem follow_append {links way : List (NodeId × Tree)} {source value : Value}
    {world middle : World} (h : follow env home links source world = (.ok (.ok value), middle)) :
    follow env home (links ++ way) source world = follow env home way value middle := by
  rw [follow_append_eq, Eval.andThen, h]

theorem follow_of_walk {kind : Kind} {next : NodeId} {slots : List (Option Tree)}
    {gateway : Option Registry} {indices : List Nat} {source value : Value} {world after : World}
    (h : (indices.foldlM (fun value index => Script.getValue index value) source).run
      (Engine.reach kind (child env home next slots)) gateway world = (.ok (.ok value), after)) :
    ∃ links, indices.mapM (child? next slots) = some links ∧
      follow env home links source world = (.ok (.ok value), after) := by
  induction indices generalizing source world with
  | nil => exact ⟨[], rfl, h⟩
  | cons index rest ih =>
    rw [List.foldlM_cons, Script.bind_eq_andThen, Script.run_andThen, Eval.andThen,
      Script.getValue, Script.run, Eval.andThen, Engine.reach, child_eq] at h
    cases hentry : child? next slots index with
    | none =>
      rw [hentry] at h
      cases h
    | some entry =>
      rw [hentry] at h
      dsimp only [Option.map_some] at h
      rcases hget : (entry.2.handle env home entry.1).get source world with
        ⟨misuse | error | found, middle⟩
      · rw [hget] at h
        cases h
      · rw [hget] at h
        cases h
      · rw [hget] at h
        obtain ⟨links, hlinks, hfollow⟩ := ih h
        refine ⟨entry :: links, ?_, ?_⟩
        · rw [List.mapM_cons, hentry, hlinks]
          rfl
        · rw [follow, Eval.andThen, hget]
          exact hfollow

/-! ### What a link finds does not depend on the note of the latest call -/

theorem get_visit (tree : Tree) (id : NodeId) (source : Value) (world : World) (node : NodeId)
    (object : Value) :
    (tree.handle env home id).get source (world.visit node object) =
      (tree.handle env home id).get source world := by
  cases tree
  rfl

theorem follow_bare (plain : env.Plain home) {links : List (NodeId × Tree)}
    (standard : ∀ link ∈ links, link.2.all Body.isStandard = true) (source : Value)
    {world world' : World} (h : world.bare = world'.bare) :
    (follow env home links source world).1 = (follow env home links source world').1 := by
  induction links generalizing source world world' with
  | nil => rfl
  | cons link rest ih =>
    obtain ⟨hlink, hrest⟩ := List.forall_mem_cons.1 standard
    have accessors : ∀ id, ∀ accessor ∈ env.accessor home id, accessor.Blind env := by
      intro id accessor haccessor
      rw [plain id] at haccessor
      cases haccessor
    obtain ⟨hsame, hafter⟩ := ((blind_handle accessors link.1 hlink).get source)
      (world.visit 0 .null) (world'.visit 0 .null) h
    rw [get_visit, get_visit] at hsame hafter
    rw [follow, Eval.andThen, Eval.andThen]
    rcases hget : (link.2.handle env home link.1).get source world with ⟨outcome, after⟩
    rcases hget' : (link.2.handle env home link.1).get source world' with ⟨outcome', after'⟩
    rw [hget, hget'] at hsame hafter
    cases hsame
    rcases outcome with misuse | error | value
    · rfl
    · rfl
    · exact ih hrest value (congrArg (World.visit · 0 .null) hafter)

theorem mem_of_mapM_child? {next : NodeId} {slots : List (Option Tree)} {indices : List Nat}
    {links : List (NodeId × Tree)} (h : indices.mapM (child? next slots) = some links) :
    ∀ link ∈ links, ∃ index, link ∈ child? next slots index := by
  induction indices generalizing links with
  | nil =>
    cases h
    simp
  | cons index rest ih =>
    rw [List.mapM_cons] at h
    obtain ⟨link, hlink, h⟩ := Option.bind_eq_some_iff.1 h
    obtain ⟨others, hothers, h⟩ := Option.bind_eq_some_iff.1 h
    cases h
    exact List.forall_mem_cons.2 ⟨⟨index, hlink⟩, ih hothers⟩

theorem Assigns.standard {id : NodeId} {tree : Tree} {links : List (NodeId × Tree)} {name : String}
    (h : Assigns id tree links name) (hall : tree.all Body.isStandard = true) :
    ∀ link ∈ links, link.2.all Body.isStandard = true := by
  induction h with
  | property => simp
  | chain before hlast _ ih =>
    rw [all, Bool.and_eq_true] at hall
    rw [List.forall_mem_append]
    refine ⟨?_, ih (all_child hall.2 hlast)⟩
    intro link hlink
    obtain ⟨index, hindex⟩ := mem_of_mapM_child? before link hlink
    exact all_child hall.2 hindex

/-! ### Sets -/

inductive Assignment (env : Env) (home : TreeId) (id : NodeId) (tree : Tree) (target value : Value)
    (before : World) : Except EvalError Unit → World → Prop where
  | failed {error : EvalError} {after : World} (same : after.heap.objects = before.heap.objects) :
      Assignment env home id tree target value before (.error error) after
  | assigned {links : List (NodeId × Tree)} {name : String} {object : ObjectId} {after : World}
      (way : Assigns id tree links name)
      (found : (follow env home links target before).1 = .ok (.ok (.object object)))
      (written : before.heap.Writes object name value after.heap) :
      Assignment env home id tree target value before (.ok ()) after

section Sets
variable {id : NodeId} {slots : List (Option Tree)} {target value : Value} {world : World}

theorem assignment_property (closed : world.Closed)
    (htarget : target.within world.heap.objects.size = true)
    (hvalue : value.within world.heap.objects.size = true) (name : String) (seat : Seat)
    (reach : Nat → Handle) (gateway : Option Registry) :
    ∃ outcome after,
      (((Body.property name).assign seat target value).run reach gateway) world =
        (.ok outcome, after) ∧ after.Closed ∧
      Assignment env home id (.node (.property name) slots) target value world outcome after := by
  cases target with
  | object o =>
    have valid : o < world.heap.objects.size := by simpa [Value.within] using htarget
    refine ⟨.ok (), _, rfl, ⟨closed.heap.set valid hvalue, ?_⟩,
      .assigned .property rfl (world.heap.writes_set valid name value)⟩
    have hsize := world.heap.size_set o name value
    exact hsize.symm ▸ closed.constants
  | _ => exact ⟨.error _, world, rfl, closed, .failed rfl⟩

theorem assignment_chain (plain : env.Plain home) (closed : world.Closed)
    (passive : slotsAll Body.isPassive slots = true)
    (hwithin : slotsAll (Body.within world.heap.objects.size) slots = true)
    (htarget : target.within world.heap.objects.size = true)
    (last : ∀ entry ∈ child? (id + 1) slots (slots.length - 1), ∀ target middle,
      middle.heap.objects = world.heap.objects → middle.Closed →
      target.within world.heap.objects.size = true →
      ∃ outcome after,
        (entry.2.handle env home entry.1).set target value middle = (.ok outcome, after) ∧
        after.Closed ∧ Assignment env home entry.1 entry.2 target value middle outcome after) :
    ∃ outcome after,
      ((Body.chain.assign (seat (.node .chain slots)) target value).run
        (Engine.reach .chain (child env home (id + 1) slots)) env.gateway) world =
          (.ok outcome, after) ∧ after.Closed ∧
      Assignment env home id (.node .chain slots) target value world outcome after := by
  have hslots : (seat (.node .chain slots)).slots = slots.length := rfl
  rw [Body.assign, hslots]
  split
  next => exact ⟨.error _, world, rfl, closed, .failed rfl⟩
  next =>
    have hreach : ∀ index source, source.within world.heap.objects.size = true →
        ((Engine.reach .chain (child env home (id + 1) slots) index).get source).Settles
          world.heap.objects (Constants.Within world.heap.objects.size)
          (Finds world.heap.objects.size) := by
      intro index source hsource
      apply settles_reach Finds.error
      intro entry hentry
      exact settles_get plain closed.heap entry.1 (all_child passive hentry)
        (all_child hwithin hentry) hsource
    obtain ⟨outcome, middle, hwalk, hfinds, hobjects, hconstants⟩ :=
      (Body.settles_walk hreach htarget (List.range (slots.length - 1)) :
        (Script.run _ env.gateway _).Settles _ _ _) world rfl closed.constants
    have hclosed : middle.Closed := ⟨closed.heap.of_objects_eq hobjects, hobjects ▸ hconstants⟩
    rw [Script.bind_eq_andThen, Script.run_andThen, Eval.andThen, Body.walk, hwalk]
    cases outcome with
    | error error => exact ⟨.error error, middle, rfl, hclosed, .failed hobjects⟩
    | ok found =>
      obtain ⟨links, hlinks, hfollow⟩ := follow_of_walk hwalk
      simp only [Script.onOk, Script.setValue, Script.run, Eval.andThen, Engine.reach, child_eq]
      cases hentry : child? (id + 1) slots (slots.length - 1) with
      | none => exact ⟨.error _, middle, rfl, hclosed, .failed hobjects⟩
      | some entry =>
        obtain ⟨outcome, after, hset, hafter, hassignment⟩ :=
          last entry hentry found middle hobjects hclosed (hfinds found rfl)
        dsimp only [Option.map_some]
        rw [hset]
        refine ⟨outcome, after, rfl, hafter, ?_⟩
        cases hassignment with
        | failed same => exact .failed (same.trans hobjects)
        | assigned way hfound written =>
          refine .assigned (.chain hlinks hentry way) ?_ (written.of_objects_eq hobjects.symm rfl)
          rw [follow_append hfollow]
          exact hfound

theorem assignment_handle (plain : env.Plain home) {tree : Tree} (closed : world.Closed)
    (passive : tree.all Body.isPassive = true)
    (hwithin : tree.all (Body.within world.heap.objects.size) = true)
    (htarget : target.within world.heap.objects.size = true)
    (hvalue : value.within world.heap.objects.size = true) :
    ∃ outcome after,
      (tree.handle env home id).set target value world = (.ok outcome, after) ∧ after.Closed ∧
      Assignment env home id tree target value world outcome after := by
  induction id, tree using child_induction generalizing target world with
  | node id body slots ih =>
    rw [handle_set (Engine.substitute?_eq_none plain id body)]
    obtain ⟨trace, trace', hresult, hafter⟩ := Engine.traced_eq_withTrace id body.kind target true
      (fun _ => none) (Engine.visiting id target ((body.assign (seat (.node body slots)) target
        value).run (Engine.reach body.kind (child env home (id + 1) slots)) env.gateway)) world
    have hbegun : ((world.withTrace trace).visit id target).Closed :=
      ⟨closed.heap, closed.constants⟩
    have hbody : ∃ outcome after,
        ((body.assign (seat (.node body slots)) target value).run
          (Engine.reach body.kind (child env home (id + 1) slots)) env.gateway)
            ((world.withTrace trace).visit id target) = (.ok outcome, after) ∧ after.Closed ∧
        Assignment env home id (.node body slots) target value
          ((world.withTrace trace).visit id target) outcome after := by
      have hpassive := passive
      rw [all, Bool.and_eq_true] at hpassive hwithin
      cases body with
      | property name => exact assignment_property hbegun htarget hvalue name _ _ _
      | chain =>
        apply assignment_chain plain hbegun hpassive.2 hwithin.2 htarget
        intro entry hentry target middle hobjects hmiddle htarget
        apply ih _ entry hentry hmiddle (all_child hpassive.2 hentry)
        · rw [hobjects]
          exact all_child hwithin.2 hentry
        · rw [hobjects]
          exact htarget
        · rw [hobjects]
          exact hvalue
      | method _ | staticMethod _ _ | host _ => cases hpassive.1
      | _ => exact ⟨.error _, _, rfl, hbegun, .failed rfl⟩
    obtain ⟨outcome, after, hact, hclosed, hassignment⟩ := hbody
    rw [Engine.visiting, hact] at hresult hafter
    refine ⟨outcome, after.withTrace trace', Prod.ext hresult hafter,
      ⟨hclosed.heap, hclosed.constants⟩, ?_⟩
    cases hassignment with
    | failed same => exact .failed same
    | assigned way found written =>
      have standard := all_imp Body.isStandard_of_isPassive passive
      refine .assigned way ?_ written
      rw [← found]
      exact follow_bare plain (way.standard standard) target rfl

end Sets

/-- On a graph without dangling handles, used by a tree that has none: a get ends and changes no
object, and a set ends and either fails and changes no object or writes the one field it is meant
for. -/
theorem assignment_is_atomic (plain : env.Plain home) {tree : Tree}
    (passive : tree.all Body.isPassive = true) {id : NodeId} (h : id < tree.size) {world : World}
    (closed : world.Closed) (hwithin : tree.all (Body.within world.heap.objects.size) = true) :
    (∀ source, source.within world.heap.objects.size = true →
      ∃ outcome after, (tree.handleAt env home id).get source world = (.ok outcome, after) ∧
        after.Closed ∧ after.heap.objects = world.heap.objects) ∧
    ∀ target value, target.within world.heap.objects.size = true →
      value.within world.heap.objects.size = true →
      ∃ outcome after, (tree.handleAt env home id).set target value world = (.ok outcome, after) ∧
        after.Closed ∧ ∃ sub, tree.Sub id sub ∧
          Assignment env home id sub target value world outcome after := by
  obtain ⟨place, hplace⟩ := exists_lookUp h
  have hsub := Sub.of_lookUp hplace
  have hhandle : tree.handleAt env home id = place.subtree.handle env home id := by
    rw [handleAt, hplace]
  rw [hhandle]
  constructor
  · intro source hsource
    obtain ⟨outcome, after, hget, _, hobjects, hconstants⟩ :=
      settles_get plain closed.heap id (hsub.all passive) (hsub.all hwithin) hsource world rfl
        closed.constants
    exact ⟨outcome, after, hget, ⟨closed.heap.of_objects_eq hobjects, hobjects ▸ hconstants⟩,
      hobjects⟩
  · intro target value htarget hvalue
    obtain ⟨outcome, after, hset, hafter, hassignment⟩ :=
      assignment_handle plain closed (hsub.all passive) (hsub.all hwithin) htarget hvalue
    exact ⟨outcome, after, hset, hafter, place.subtree, hsub, hassignment⟩

end Tree

def World.shared : World where
  outside :=
    { heap :=
        { objects := #[{ typeName := "P", fields := [("a", .object 1), ("c", .object 1)] },
            { typeName := "Q", fields := [("x", .int 1), ("b", .int 2)] }] } }

def Tree.sharedField : Tree :=
  .node .chain [some (.node (.property "a") []), some (.node (.property "x") [])]

/-- An assignment through one of the fields writes the object that both hold. -/
theorem sharedField_assigned :
    World.shared.Closed ∧
      ((Tree.sharedField.handleAt {} 0 0).set (.object 0) (.int 5) .shared).1 = .ok (.ok ()) ∧
      ∃ outcome after,
        (Tree.sharedField.handleAt {} 0 0).set (.object 0) (.int 5) .shared = (.ok outcome, after) ∧
        after.Closed ∧ ∃ sub, Tree.sharedField.Sub 0 sub ∧
          Tree.Assignment {} 0 0 sub (.object 0) (.int 5) .shared outcome after := by
  have closed : World.shared.Closed := by
    refine ⟨Heap.closed_of_fields (by decide), ?_⟩
    intro tree node value h
    cases h
  have hatomic := @Tree.assignment_is_atomic {} 0 (fun _ => rfl) Tree.sharedField (by decide) 0
    (by decide) .shared closed (by decide)
  exact ⟨closed, rfl, hatomic.2 (.object 0) (.int 5) (by decide) (by decide)⟩

end ObjectNavigation
