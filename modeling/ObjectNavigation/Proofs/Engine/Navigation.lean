import ObjectNavigation.Proofs.Engine.Sparse
import ObjectNavigation.Proofs.Value.Walk

/-!
Plain navigation. A node that says that it is a simple chain reads fields one after another, and
assigns to the last of them (`Tree.exists_path_of_ask`, `Tree.reads_handle`, `Tree.puts_handle`).
Reading and assigning then obey the laws of a lens, as far as the way to the field does not lead
through the field itself (`Tree.simple_chain_is_lens`).
-/

namespace ObjectNavigation

namespace Tree
variable {tree sub : Tree} {home : TreeId} {env : Env} {id : NodeId}

/-! ### The names on the way -/

def fieldName? : Tree → Option String
  | .node (.property name) _ => some name
  | _ => none

def path? : Tree → Option (List String)
  | .node (.property name) _ => some [name]
  | .node .chain slots => slots.mapM (Option.bind · fieldName?)
  | _ => none

theorem ask_simpleProperty (standard : sub.all Body.isStandard = true) (world : World) :
    (sub.handle env home id).ask .simpleProperty world =
      (.ok (.ok sub.fieldName?.isSome), world) := by
  obtain ⟨body, slots⟩ := sub
  cases body with
  | host host => cases standard
  | _ => rfl

theorem all_isSome_fieldName? (slots : List (Option Tree)) :
    (slots.all fun slot => slot.any fun child => child.fieldName?.isSome) =
      (slots.mapM (Option.bind · fieldName?)).isSome := by
  induction slots with
  | nil => rfl
  | cons slot rest ih =>
    rw [List.all_cons, List.mapM_cons, ih]
    cases hname : slot.bind fieldName? with
    | none => cases slot <;> simp_all
    | some name =>
      cases slot with
      | none => cases hname
      | some child =>
        have hchild : child.fieldName? = some name := hname
        cases hrest : rest.mapM (Option.bind · fieldName?) <;> simp [hchild]

/-- A node of the library says that it is a simple chain exactly when it reads fields one after
another, one at least. -/
theorem ask_simpleChain (standard : sub.all Body.isStandard = true) (world : World) :
    (sub.handle env home id).ask .simpleChain world =
      (.ok (.ok (sub.path?.any fun names => !names.isEmpty)), world) := by
  obtain ⟨body, slots⟩ := sub
  rw [all, Bool.and_eq_true] at standard
  cases body with
  | host host => cases standard.1
  | chain =>
    cases slots with
    | nil => rfl
    | cons slot rest =>
      have hchild : ∀ index world,
          (Engine.reach .chain (child env home (id + 1) (slot :: rest)) index).ask .simpleProperty
            world = (.ok (.ok ((child? (id + 1) (slot :: rest) index).any fun entry =>
              entry.2.fieldName?.isSome)), world) := by
        intro index world
        rw [Engine.reach, child_eq]
        cases h : child? (id + 1) (slot :: rest) index with
        | none => rfl
        | some entry => exact ask_simpleProperty (all_child standard.2 h) world
      have hagree := Body.run_allAgree (fun index (_ : index ∈ List.range (slot :: rest).length) =>
        hchild index) env.gateway world
      rw [all_range_child? fun child => child.fieldName?.isSome, all_isSome_fieldName?] at hagree
      refine Eq.trans hagree ?_
      rw [path?]
      cases hpath : (slot :: rest).mapM (Option.bind · fieldName?) with
      | none => rfl
      | some names =>
        cases names with
        | nil => simp [List.mapM_cons, Option.bind_eq_some_iff] at hpath
        | cons name names => rfl
  | _ => rfl

theorem exists_path_of_ask (standard : sub.all Body.isStandard = true) {world : World}
    (h : ((sub.handle env home id).ask .simpleChain world).1 = .ok (.ok true)) :
    ∃ front last, sub.path? = some (front ++ [last]) := by
  rw [ask_simpleChain standard] at h
  cases hpath : sub.path? with
  | none => simp [hpath] at h
  | some names =>
    rcases List.eq_nil_or_concat names with rfl | ⟨front, last, rfl⟩
    · simp [hpath] at h
    · exact ⟨front, last, by rw [List.concat_eq_append]⟩

end Tree

/-! ### Reading -/

/-- The computation finds what there is in the graph and changes nothing that is outside. -/
def Eval.Reads (property : Constants → Prop) (act : Eval Value) (find : Heap → Option Value) :
    Prop :=
  ∀ world, property world.constants → ∃ outcome after, act world = (.ok outcome, after) ∧
    outcome.toOption = find world.heap ∧ after.surface = world.surface ∧ property after.constants

namespace Eval.Reads
variable {property : Constants → Prop} {act : Eval Value} {find : Heap → Option Value}

theorem done {reach : Nat → Handle} {gateway : Option Registry} {outcome : Except EvalError Value}
    {found : Option Value} (h : outcome.toOption = found) :
    ((Script.done outcome).run reach gateway).Reads property fun _ => found :=
  fun world hworld => ⟨outcome, world, rfl, h, rfl, hworld⟩

theorem heap {reach : Nat → Handle} {gateway : Option Registry} {next : Heap → BodyScript Value}
    (h : ∀ heap, ((next heap).run reach gateway).Reads property fun _ => find heap) :
    ((Script.heap >>= next).run reach gateway).Reads property find :=
  fun world hworld => h world.heap world hworld

theorem bind {reach : Nat → Handle} {gateway : Option Registry} {script : BodyScript Value}
    (first : (script.run reach gateway).Reads property find) {next : Value → BodyScript Value}
    {find' : Value → Heap → Option Value}
    (h : ∀ value, ((next value).run reach gateway).Reads property (find' value)) :
    ((script >>= next).run reach gateway).Reads property
      fun heap => (find heap).bind fun value => find' value heap := by
  intro world hworld
  obtain ⟨outcome, middle, hact, hfind, hsurface, hmiddle⟩ := first world hworld
  dsimp only
  rw [Script.bind_eq_andThen, Script.run_andThen, Eval.andThen, hact, ← hfind]
  cases outcome with
  | error error => exact ⟨.error error, middle, rfl, rfl, hsurface, hmiddle⟩
  | ok value =>
    obtain ⟨outcome, after, hnext, hfind', hsurface', hafter⟩ := h value middle hmiddle
    have hheap : middle.heap = world.heap := congrArg Surface.heap hsurface
    refine ⟨outcome, after, hnext, ?_, hsurface'.trans hsurface, hafter⟩
    rw [hfind', hheap]
    rfl

theorem getValue {reach : Nat → Handle} {gateway : Option Registry} {index : Nat} {source : Value}
    (h : ((reach index).get source).Reads property find) :
    ((Script.getValue index source).run reach gateway).Reads property find := by
  rwa [Script.run_getValue]

theorem traced (h : act.Reads property find) (node : NodeId) (kind : Kind) (source : Value)
    (setter : Bool) (result : Value → Option Value) :
    (Engine.traced node kind source setter result act).Reads property find :=
  fun world hworld => Engine.exists_traced (fun trace => h (world.withTrace trace) hworld)
    (fun _ hends => hends) node kind source setter result

theorem visiting (h : act.Reads property find) (node : NodeId) (object : Value) :
    (Engine.visiting node object act).Reads property find :=
  fun world hworld => h (world.visit node object) hworld

theorem walk {reach : Nat → Handle} {names : List String}
    (h : ∀ index name, names[index]? = some name → ∀ source,
      ((reach index).get source).Reads property fun heap => heap.walk [name] source)
    (gateway : Option Registry) (source : Value) (count : Nat) (hcount : count ≤ names.length) :
    ((Body.walk count source).run reach gateway).Reads property
      fun heap => heap.walk (names.take count) source := by
  induction count with
  | zero => exact fun world hworld => ⟨.ok source, world, rfl, rfl, rfl, hworld⟩
  | succ count ih =>
    have hname : names[count]? = some names[count] := List.getElem?_eq_getElem hcount
    have htake : names.take (count + 1) = names.take count ++ [names[count]] := by
      rw [List.take_add_one, hname, Option.toList_some]
    simp only [Body.walk_succ, htake, Heap.walk_append]
    exact (ih (Nat.le_of_succ_le hcount)).bind fun value => .getValue (h count _ hname value)

end Eval.Reads

/-! ### Assigning -/

/-- How an assignment to a field of what was found comes out. -/
inductive Put (found : Option Value) (name : String) (value : Value) (before : Surface) :
    Except EvalError Unit → Surface → Prop where
  | written {o : ObjectId} (h : found = some (.object o)) :
      Put found name value before (.ok ()) (before.withHeap (before.heap.set o name value))
  | failed {error : EvalError} (h : ∀ o, found ≠ some (.object o)) :
      Put found name value before (.error error) before

/-- The computation assigns to a field of what is found in the graph. -/
def Eval.Puts (property : Constants → Prop) (act : Eval Unit) (find : Heap → Option Value)
    (name : String) (value : Value) : Prop :=
  ∀ world, property world.constants → ∃ outcome after, act world = (.ok outcome, after) ∧
    Put (find world.heap) name value world.surface outcome after.surface ∧
    property after.constants

namespace Eval.Puts
variable {property : Constants → Prop} {act : Eval Unit} {find : Heap → Option Value}
  {name : String} {value : Value}

theorem traced (h : act.Puts property find name value) (node : NodeId) (kind : Kind)
    (target : Value) (setter : Bool) (result : Unit → Option Value) :
    (Engine.traced node kind target setter result act).Puts property find name value :=
  fun world hworld => Engine.exists_traced (fun trace => h (world.withTrace trace) hworld)
    (fun _ hends => hends) node kind target setter result

theorem visiting (h : act.Puts property find name value) (node : NodeId) (object : Value) :
    (Engine.visiting node object act).Puts property find name value :=
  fun world hworld => h (world.visit node object) hworld

theorem setValue {reach : Nat → Handle} {gateway : Option Registry} {script : BodyScript Value}
    (first : (script.run reach gateway).Reads property find) {index : Nat}
    (h : ∀ target, ((reach index).set target value).Puts property (fun _ => some target) name
      value) :
    ((do Script.setValue index (← script) value : BodyScript Unit).run reach gateway).Puts
      property find name value := by
  intro world hworld
  obtain ⟨outcome, middle, hact, hfind, hsurface, hmiddle⟩ := first world hworld
  rw [Script.bind_eq_andThen, Script.run_andThen, Eval.andThen, hact, ← hfind, ← hsurface]
  cases outcome with
  | error error =>
    refine ⟨.error error, middle, rfl, .failed ?_, hmiddle⟩
    intro o h
    cases h
  | ok target =>
    obtain ⟨outcome, after, hset, hput, hafter⟩ := h target middle hmiddle
    simp only [Script.onOk, Script.setValue, Script.run, Eval.andThen, hset]
    exact ⟨outcome, after, rfl, hput, hafter⟩

theorem exists_object (h : act.Puts property find name value) {world after : World}
    (hworld : property world.constants) (hact : act world = (.ok (.ok ()), after)) :
    ∃ o, find world.heap = some (.object o) ∧ after.heap = world.heap.set o name value := by
  obtain ⟨outcome, after', hact', hput, _⟩ := h world hworld
  rw [hact] at hact'
  cases hact'
  generalize hsurface : after.surface = surface at hput
  cases hput with
  | @written o hfound => exact ⟨o, hfound, congrArg Surface.heap hsurface⟩

theorem exists_after (h : act.Puts property find name value) {world : World}
    (hworld : property world.constants) {o : ObjectId}
    (hfound : find world.heap = some (.object o)) :
    ∃ after, act world = (.ok (.ok ()), after) ∧
      after.surface = world.surface.withHeap (world.heap.set o name value) := by
  obtain ⟨outcome, after, hact, hput, _⟩ := h world hworld
  generalize hsurface : after.surface = surface at hput
  cases hput with
  | written hfound' =>
    rw [hfound] at hfound'
    cases hfound'
    exact ⟨after, hact, hsurface⟩
  | failed hnot => exact absurd hfound (hnot o)

end Eval.Puts

namespace Tree
variable {tree sub : Tree} {home : TreeId} {env : Env} {id : NodeId}

theorem fieldName?_eq_some {name : String} (h : sub.fieldName? = some name) :
    ∃ slots, sub = .node (.property name) slots := by
  obtain ⟨body, slots⟩ := sub
  cases body with
  | property other =>
    cases h
    exact ⟨slots, rfl⟩
  | _ => cases h

theorem length_of_path {slots : List (Option Tree)} {names : List String}
    (h : slots.mapM (Option.bind · fieldName?) = some names) : names.length = slots.length := by
  induction slots generalizing names with
  | nil =>
    cases h
    rfl
  | cons slot rest ih =>
    rw [List.mapM_cons] at h
    obtain ⟨name, _, h⟩ := Option.bind_eq_some_iff.1 h
    obtain ⟨others, hothers, h⟩ := Option.bind_eq_some_iff.1 h
    cases h
    rw [List.length_cons, List.length_cons, ih hothers]

theorem child?_of_path (next : NodeId) {slots : List (Option Tree)} {names : List String}
    (h : slots.mapM (Option.bind · fieldName?) = some names) {index : Nat} {name : String}
    (hname : names[index]? = some name) :
    ∃ entry ∈ child? next slots index, entry.2.fieldName? = some name := by
  induction slots generalizing next names index with
  | nil =>
    cases h
    cases hname
  | cons slot rest ih =>
    rw [List.mapM_cons] at h
    obtain ⟨first, hfirst, h⟩ := Option.bind_eq_some_iff.1 h
    obtain ⟨others, hothers, h⟩ := Option.bind_eq_some_iff.1 h
    cases h
    cases slot with
    | none => cases hfirst
    | some child =>
      cases index with
      | zero =>
        cases hname
        exact ⟨(next, child), rfl, hfirst⟩
      | succ index => exact ih _ hothers hname

section Plain
variable (plain : env.Plain home)
include plain

theorem reads_of_body {body : Body} {slots : List (Option Tree)}
    (hsub : tree.Sub id (.node body slots))
    (standard : (Tree.node body slots).all Body.isStandard = true)
    (hnot : (Tree.node body slots).isConstant = false) {source : Value}
    {find : Heap → Option Value}
    (h : ((body.read (seat (.node body slots)) source).run
      (Engine.reach body.kind (child env home (id + 1) slots)) env.gateway).Reads
        (Constants.Sparse tree home) find) :
    (((Tree.node body slots).handle env home id).get source).Reads (Constants.Sparse tree home)
      find := by
  rw [handle_get (Engine.substitute?_eq_none plain id body)]
  apply Eval.Reads.traced
  apply Eval.Reads.visiting
  intro world hworld
  have hask : ∀ world, ((Tree.node body slots).handle env home id).ask .constant world =
      (.ok (.ok false), world) := by
    intro world
    rw [ask_constant_of_standard standard, hnot]
  obtain ⟨begun, hbegun, hconstants, hact⟩ :=
    Engine.cached_eq_act_of_none hask (hworld.value_eq_none hsub hnot)
  have hsparse : begun.constants.Sparse tree home := by
    rcases hconstants with hsame | hchecked
    · rw [hsame]
      exact hworld
    · rw [hchecked]
      exact hworld.check id
  obtain ⟨outcome, after, hread, hfind, hsurface, hafter⟩ := h begun hsparse
  have hheap : begun.heap = world.heap := congrArg Surface.heap hbegun
  rw [hact]
  exact ⟨outcome, after, hread, hheap ▸ hfind, hsurface.trans hbegun, hafter⟩

theorem reads_property {name : String} {slots : List (Option Tree)}
    (hsub : tree.Sub id (.node (.property name) slots))
    (standard : (Tree.node (.property name) slots).all Body.isStandard = true) (source : Value) :
    (((Tree.node (.property name) slots).handle env home id).get source).Reads
      (Constants.Sparse tree home) fun heap => heap.walk [name] source := by
  apply reads_of_body plain hsub standard rfl
  apply Eval.Reads.heap
  intro heap
  cases source with
  | object o =>
    rw [Heap.walk]
    dsimp only
    cases heap.get? o name with
    | none => exact .done rfl
    | some value => exact .done rfl
  | _ => exact .done rfl

/-- What is reached in a slot of a simple chain is a read of the field there. -/
theorem reads_reach {slots : List (Option Tree)} (hsub : tree.Sub id (.node .chain slots))
    (standard : slotsAll Body.isStandard slots = true) {names : List String}
    (hpath : slots.mapM (Option.bind · fieldName?) = some names) (index : Nat) (name : String)
    (hname : names[index]? = some name) (source : Value) :
    ((Engine.reach .chain (child env home (id + 1) slots) index).get source).Reads
      (Constants.Sparse tree home) fun heap => heap.walk [name] source := by
  obtain ⟨entry, hentry, hfield⟩ := child?_of_path (id + 1) hpath hname
  have hchild := all_child standard hentry
  have hbelow := hsub.child hentry
  obtain ⟨below, child⟩ := entry
  obtain ⟨others, rfl⟩ := fieldName?_eq_some hfield
  rw [Engine.reach, child_eq, hentry]
  exact reads_property plain hbelow hchild source

theorem reads_handle (hsub : tree.Sub id sub) (standard : sub.all Body.isStandard = true)
    {names : List String} (hpath : sub.path? = some names) (source : Value) :
    ((sub.handle env home id).get source).Reads (Constants.Sparse tree home)
      fun heap => heap.walk names source := by
  obtain ⟨body, slots⟩ := sub
  cases body with
  | property name =>
    cases hpath
    exact reads_property plain hsub standard source
  | chain =>
    have hslots := standard
    rw [all, Bool.and_eq_true] at hslots
    have hlength : slots.length = names.length := (length_of_path hpath).symm
    have hwalk := Eval.Reads.walk (reads_reach plain hsub hslots.2 hpath) env.gateway source
      names.length (Nat.le_refl names.length)
    rw [List.take_length, ← hlength] at hwalk
    exact reads_of_body plain hsub standard rfl hwalk
  | _ => cases hpath

theorem puts_property (name : String) (slots : List (Option Tree)) (id : NodeId)
    (target value : Value) :
    (((Tree.node (.property name) slots).handle env home id).set target value).Puts
      (Constants.Sparse tree home) (fun _ => some target) name value := by
  rw [handle_set (Engine.substitute?_eq_none plain id (.property name))]
  apply Eval.Puts.traced
  apply Eval.Puts.visiting
  intro world hworld
  cases target with
  | object o => exact ⟨.ok (), _, rfl, .written rfl, hworld⟩
  | _ => exact ⟨.error _, world, rfl, .failed nofun, hworld⟩

theorem puts_handle (hsub : tree.Sub id sub) (standard : sub.all Body.isStandard = true)
    {front : List String} {last : String} (hpath : sub.path? = some (front ++ [last]))
    (target value : Value) :
    ((sub.handle env home id).set target value).Puts (Constants.Sparse tree home)
      (fun heap => heap.walk front target) last value := by
  obtain ⟨body, slots⟩ := sub
  cases body with
  | property name =>
    have hnames : [] ++ [name] = front ++ [last] := Option.some_inj.1 hpath
    obtain ⟨rfl, hname⟩ := List.append_inj' hnames rfl
    cases hname
    exact puts_property plain last slots id target value
  | chain =>
    rw [all, Bool.and_eq_true] at standard
    -- All links but the last are followed to the holder.
    have hlength : slots.length = front.length + 1 := by
      rw [← length_of_path hpath, List.length_append, List.length_singleton]
    rw [handle_set (Engine.substitute?_eq_none plain id .chain)]
    apply Eval.Puts.traced
    apply Eval.Puts.visiting
    have hslots : (seat (.node .chain slots)).slots = front.length + 1 := hlength
    rw [Body.assign, hslots, if_neg (Nat.succ_ne_zero _), Nat.add_sub_cancel]
    have hfront : front.length ≤ (front ++ [last]).length := by
      rw [List.length_append]
      exact Nat.le_add_right _ _
    have hwalk := Eval.Reads.walk (reads_reach plain hsub standard.2 hpath) env.gateway target
      front.length hfront
    rw [List.take_left' rfl] at hwalk
    apply Eval.Puts.setValue hwalk
    intro holder
    have hlast : (front ++ [last])[front.length]? = some last := by simp
    obtain ⟨entry, hentry, hfield⟩ := child?_of_path (id + 1) hpath hlast
    obtain ⟨below, child⟩ := entry
    obtain ⟨others, rfl⟩ := fieldName?_eq_some hfield
    rw [Engine.reach, child_eq, hentry]
    exact puts_property plain last others below holder value
  | _ => cases hpath

end Plain

end Tree

/-! ### The laws of a lens -/

/-- Writing what was read changes nothing. If the way to the field does not lead through it, what
was written is read, and of two values written the second stays. Each law is about any two states
with such constants and the graph in question. -/
structure Handle.Lens (handle : Handle) (reached : Constants → Prop) (front : List String)
    (last : String) : Prop where
  getPut : ∀ {before world : World} {target value : Value}, reached before.constants →
    reached world.constants → world.heap = before.heap →
    (handle.get target before).1 = .ok (.ok value) →
    ∃ after, handle.set target value world = (.ok (.ok ()), after) ∧ after.surface = world.surface
  putGet : ∀ {before middle world : World} {target value : Value}, reached before.constants →
    before.heap.Closed → target.within before.heap.objects.size = true →
    before.heap.Apart front last target →
    handle.set target value before = (.ok (.ok ()), middle) →
    reached world.constants → world.heap = middle.heap →
    ∃ after, handle.get target world = (.ok (.ok value), after) ∧ after.surface = world.surface
  putPut : ∀ {before middle world : World} {target value : Value}, reached before.constants →
    before.heap.Apart front last target →
    handle.set target value before = (.ok (.ok ()), middle) →
    reached world.constants → world.heap = middle.heap → ∀ other,
    ∃ after alone, handle.set target other world = (.ok (.ok ()), after) ∧
      handle.set target other before = (.ok (.ok ()), alone) ∧ after.heap = alone.heap

namespace Handle.Lens
variable {handle : Handle} {property reached : Constants → Prop} {front : List String}
  {last : String}

theorem mono (h : handle.Lens property front last)
    (himp : ∀ constants, reached constants → property constants) :
    handle.Lens reached front last where
  getPut hbefore hworld := h.getPut (himp _ hbefore) (himp _ hworld)
  putGet hbefore closed htarget apart hset hworld :=
    h.putGet (himp _ hbefore) closed htarget apart hset (himp _ hworld)
  putPut hbefore apart hset hworld := h.putPut (himp _ hbefore) apart hset (himp _ hworld)

theorem of_reads_puts
    (reads : ∀ source,
      (handle.get source).Reads property fun heap => heap.walk (front ++ [last]) source)
    (puts : ∀ target value,
      (handle.set target value).Puts property (fun heap => heap.walk front target) last value) :
    handle.Lens property front last where
  getPut {before world target value} hbefore hworld hheap hget := by
    obtain ⟨outcome, _, hact, hfind, _⟩ := reads target before hbefore
    rw [hact] at hget
    cases hget
    obtain ⟨o, hholder, hfield⟩ := Heap.walk_concat_eq_some hfind.symm
    rw [← hheap] at hholder hfield
    obtain ⟨after, hset, hsurface⟩ := (puts target value).exists_after hworld hholder
    rw [Heap.set_of_get? hfield] at hsurface
    exact ⟨after, hset, hsurface⟩
  putGet {before middle world target value} hbefore closed htarget apart hset hworld hheap := by
    obtain ⟨o, hholder, hmiddle⟩ := (puts target value).exists_object hbefore hset
    have valid : o < before.heap.objects.size := by
      have hwithin := Heap.walk_within closed htarget hholder
      simpa [Value.within] using hwithin
    obtain ⟨outcome, after, hact, hfind, hsurface, _⟩ := reads target world hworld
    dsimp only at hfind
    -- The assignment leaves the way to the holder as it was.
    rw [hheap, hmiddle, Heap.walk_append, Heap.walk_set value (apart o hholder), hholder,
      Option.bind_some, Heap.walk, Heap.get?_set_self valid] at hfind
    rw [eq_ok_of_toOption hfind] at hact
    exact ⟨after, hact, hsurface⟩
  putPut {before middle world target value} hbefore apart hset hworld hheap other := by
    obtain ⟨o, hholder, hmiddle⟩ := (puts target value).exists_object hbefore hset
    rw [hmiddle] at hheap
    have hworldHolder : world.heap.walk front target = some (.object o) := by
      rw [hheap, Heap.walk_set value (apart o hholder), hholder]
    obtain ⟨after, hafter, hwritten⟩ := (puts target other).exists_after hworld hworldHolder
    obtain ⟨alone, halone, hwritten'⟩ := (puts target other).exists_after hbefore hholder
    refine ⟨after, alone, hafter, halone, ?_⟩
    calc after.heap
        = world.heap.set o last other := congrArg Surface.heap hwritten
      _ = before.heap.set o last other := by rw [hheap, Heap.set_set]
      _ = alone.heap := (congrArg Surface.heap hwritten').symm

end Handle.Lens

/-- After every history of a tree of the library without accessors, a node that says that it is a
simple chain obeys the laws of a lens for the fields that it names. -/
theorem Tree.simple_chain_is_lens {tree : Tree} {home : TreeId} {env : Env}
    (standard : tree.all Body.isStandard = true) (plain : env.Plain home) {id : NodeId}
    (h : id < tree.size) {world : World}
    (simple : ((tree.handleAt env home id).ask .simpleChain world).1 = .ok (.ok true)) :
    ∃ sub front last, tree.Sub id sub ∧ sub.path? = some (front ++ [last]) ∧
      (tree.handleAt env home id).Lens (tree.Reaches home) front last := by
  obtain ⟨place, hplace⟩ := exists_lookUp h
  have hsub := Sub.of_lookUp hplace
  have hhandle : tree.handleAt env home id = place.subtree.handle env home id := by
    rw [handleAt, hplace]
  rw [hhandle] at simple ⊢
  obtain ⟨front, last, hpath⟩ := exists_path_of_ask (hsub.all standard) simple
  refine ⟨place.subtree, front, last, hsub, hpath, ?_⟩
  have hlens : (place.subtree.handle env home id).Lens (Constants.Sparse tree home) front last :=
    .of_reads_puts (reads_handle plain hsub (hsub.all standard) hpath)
      (puts_handle plain hsub (hsub.all standard) hpath)
  exact hlens.mono fun constants reached => reached.sparse standard

def World.loop : World where
  outside :=
    { heap :=
        { objects := #[{ typeName := "P", fields := [("next", .object 0)] },
            { typeName := "P", fields := [("next", .int 1)] }] } }

def World.ring : World where
  outside :=
    { heap :=
        { objects := #[{ typeName := "P", fields := [("next", .object 1)] },
            { typeName := "P", fields := [("next", .object 0)] }] } }

def Tree.afterNext : Tree :=
  .node .chain [some (.node (.property "next") []), some (.node (.property "next") [])]

theorem afterNext_lens_at_ring :
    let written := (Tree.afterNext.handleAt {} 0 0).set (.object 0) (.object 1) .ring
    ((Tree.afterNext.handleAt {} 0 0).ask .simpleChain .ring).1 = .ok (.ok true) ∧
      World.ring.heap.Closed ∧ World.ring.heap.Apart ["next"] "next" (.object 0) ∧
      written.1 = .ok (.ok ()) ∧
      ∃ after, (Tree.afterNext.handleAt {} 0 0).get (.object 0) written.2 =
        (.ok (.ok (.object 1)), after) ∧ after.surface = written.2.surface := by
  have closed : World.ring.heap.Closed := Heap.closed_of_fields (by decide)
  have apart : World.ring.heap.Apart ["next"] "next" (.object 0) := by
    intro o hholder before hprefix hbefore
    obtain ⟨rest, hrest⟩ := hprefix
    cases before with
    | nil =>
      cases hbefore
      cases hholder
    | cons name names => simp at hrest
  refine ⟨rfl, closed, apart, rfl, ?_⟩
  obtain ⟨sub, front, last, hsub, hpath, hlens⟩ :=
    @Tree.simple_chain_is_lens Tree.afterNext 0 {} (by decide) (fun _ => rfl) 0 (by decide) .ring
      rfl
  cases hsub.unique .root
  have hnames : ["next"] ++ ["next"] = front ++ [last] := Option.some_inj.1 hpath
  obtain ⟨rfl, hlast⟩ := List.append_inj' hnames rfl
  cases hlast
  have reached : Tree.afterNext.Reaches 0 World.ring.constants := .blank fun _ => rfl
  have plain : Env.Plain {} 0 := fun _ => rfl
  have reachedAfter := reached.set plain 0 (.object 0) (.object 1)
  exact hlens.putGet reached closed (by decide) apart rfl reachedAfter rfl

-- Here the way to the field leads through the field, and what was written is not read.
example :
    let written := (Tree.afterNext.handleAt {} 0 0).set (.object 0) (.object 1) .loop
    written.1 = .ok (.ok ()) ∧
      ((Tree.afterNext.handleAt {} 0 0).get (.object 0) written.2).1 = .ok (.ok (.int 1)) :=
  ⟨rfl, rfl⟩

end ObjectNavigation
