import ObjectNavigation.Proofs.Engine.Kept
import ObjectNavigation.Proofs.Node.Order
import ObjectNavigation.Proofs.Script.Confined
import ObjectNavigation.Proofs.Source.Formed

/-!
Trees without a missing child. In a supplied tree every node has as many children as its body needs
and no slot is empty. Without accessors, every get and set of its nodes comes to an end, and never
because a child is missing; the bodies reach filled slots only. The trees of sources are supplied
(`Source.Formed.supplied`).
-/

namespace ObjectNavigation

/-- From every state the computation comes to an end, and not because a child is missing. -/
def Eval.Completes {α : Type} (act : Eval α) : Prop :=
  ∀ world, ∃ outcome after, act world = (.ok outcome, after) ∧ Complete outcome

structure Handle.Completes (handle : Handle) : Prop where
  get : ∀ source, (handle.get source).Completes
  set : ∀ target value, (handle.set target value).Completes
  ask : ∀ question, (handle.ask question).Completes

namespace Eval.Completes
variable {α β : Type}

theorem finish {outcome : Except EvalError α} (h : Complete outcome) :
    (Eval.finish outcome).Completes :=
  fun world => ⟨outcome, world, rfl, h⟩

theorem andThen {act : Eval α} (first : act.Completes) {next : Except EvalError α → Eval β}
    (hnext : ∀ outcome, Complete outcome → (next outcome).Completes) :
    (act.andThen next).Completes := by
  intro world
  obtain ⟨outcome, after, hact, hcomplete⟩ := first world
  rw [Eval.andThen, hact]
  exact hnext outcome hcomplete after

theorem invoke (gateway : Option Registry) (call : Invocation) :
    (ObjectNavigation.invoke gateway call).Completes := by
  intro world
  cases gateway with
  | none => exact ⟨_, world, rfl, .method (.error _)⟩
  | some registry => exact ⟨_, _, rfl, .method _⟩

theorem run {C : Type} {known : C → Prop} {reach : C → Handle}
    (hreach : ∀ child, known child → (reach child).Completes) (gateway : Option Registry)
    {script : Script C α} (h : script.Confined known) : (script.run reach gateway).Completes := by
  induction h with
  | done h => exact finish h
  | get within _ ih => exact ((hreach _ within).get _).andThen ih
  | set within _ ih => exact ((hreach _ within).set _ _).andThen ih
  | ask within _ ih => exact ((hreach _ within).ask _).andThen ih
  | invoke _ ih => exact (invoke gateway _).andThen ih
  | look _ ih => exact fun world => ih world.surface world
  | locate _ ih => exact fun world => ih world.context.position world
  | alter _ ih => exact fun world => ih (world.withSurface _)

theorem traced {act : Eval α} (h : act.Completes) (node : NodeId) (kind : Kind) (source : Value)
    (setter : Bool) (result : α → Option Value) :
    (Engine.traced node kind source setter result act).Completes :=
  fun world => Engine.exists_traced (fun trace => h (world.withTrace trace)) (fun _ hends => hends)
    node kind source setter result

theorem visiting {act : Eval α} (h : act.Completes) (node : NodeId) (object : Value) :
    (Engine.visiting node object act).Completes :=
  fun world => h (world.visit node object)

section Cached
variable {act : Eval Value} (h : act.Completes) (home : TreeId) (id : NodeId)
include h

theorem kept : (Engine.kept home id act).Completes := by
  intro world
  rw [Engine.kept]
  cases (world.constants.cell home id).value with
  | some value => exact ⟨_, world, rfl, .ok value⟩
  | none => exact h world

theorem keeping : (Engine.keeping home id act).Completes := by
  refine h.andThen fun outcome hcomplete => ?_
  cases outcome with
  | error error => exact finish hcomplete
  | ok value => exact fun after => ⟨_, _, rfl, .ok _⟩

theorem cached {ask : Eval Bool} (hask : ask.Completes) :
    (Engine.cached home id ask act).Completes := by
  intro world
  rw [Engine.cached]
  split
  next => exact h.kept home id world
  next =>
    refine hask.andThen (fun outcome hcomplete => ?_) _
    rcases outcome with error | constant
    · exact finish fun kind index heq => hcomplete kind index (congrArg _ (Except.error.inj heq))
    · cases constant with
      | true => exact h.keeping home id
      | false => exact h.kept home id

end Cached
end Eval.Completes

namespace Tree

/-- Every node has the children that its body needs, and no slot is empty. -/
inductive Supplied : Tree → Prop
  | node {body : Body} {children : List Tree} (suits : body.suits children.length = true)
    (supplied : ∀ t ∈ children, Supplied t) : Supplied (.node body (children.map some))

theorem Supplied.leaf {body : Body} (suits : body.suits 0 = true) : Supplied (.node body []) :=
  @Supplied.node _ [] suits (List.forall_mem_nil _)

section
variable {t : Tree} (h : Supplied t)
include h

theorem Supplied.suits : t.body.suits t.slots.length = true := by
  cases h with
  | node suits _ => rwa [slots, List.length_map]

theorem Supplied.exists_child (next : NodeId) {index : Nat} (hindex : index < t.slots.length) :
    ∃ entry ∈ child? next t.slots index, Supplied entry.2 := by
  cases h with
  | @node body children suits supplied =>
    rw [slots, List.length_map] at hindex
    refine ⟨(next + sizeSlots ((children.map some).take index), children[index]), ?_,
      supplied _ (List.getElem_mem hindex)⟩
    rw [Option.mem_def, child?_eq, slots, List.getElem?_map, List.getElem?_eq_getElem hindex]
    rfl

theorem Supplied.child {next : NodeId} {index : Nat} {entry : NodeId × Tree}
    (hentry : entry ∈ child? next t.slots index) : Supplied entry.2 := by
  have hslot := Option.join_eq_some_iff.1 (slot_of_child? hentry)
  obtain ⟨hindex, _⟩ := List.getElem?_eq_some_iff.1 hslot
  obtain ⟨other, hother, hsupplied⟩ := h.exists_child next hindex
  rwa [Option.mem_unique hentry hother]

end

theorem slots_seat (t : Tree) : t.seat.slots = t.slots.length := by
  cases t
  rfl

theorem Supplied.sub {tree sub : Tree} {id : NodeId} (h : Supplied tree) (hsub : tree.Sub id sub) :
    Supplied sub := by
  induction hsub with
  | root => exact h
  | child _ hentry ih => exact ih.child hentry

/-- The gets, sets and questions of supplied nodes come to an end, and not because a child is
missing. -/
theorem Supplied.completes {tree : Tree} (h : Supplied tree) {env : Env} {home : TreeId}
    (plain : env.Plain home) (id : NodeId) : (tree.handle env home id).Completes := by
  induction id, tree using child_induction with
  | node id body slots ih =>
    have hsuits : body.suits slots.length = true := h.suits
    have hseat : body.suits (seat (.node body slots)).slots = true := hsuits
    have hreach : ∀ index, index < slots.length →
        (Engine.reach body.kind (Tree.child env home (id + 1) slots) index).Completes := by
      intro index hindex
      obtain ⟨entry, hentry, hsupplied⟩ : ∃ entry ∈ child? (id + 1) slots index,
          Supplied entry.2 := h.exists_child (id + 1) hindex
      rw [Engine.reach, child_eq, Option.mem_def.1 hentry]
      exact ih index entry hentry hsupplied
    have hask : ∀ question, (((Tree.node body slots).handle env home id).ask question).Completes :=
      fun question => .run hreach env.gateway
        (Body.confined_ask (Body.isStandard_of_suits hsuits) (seat (.node body slots)) question)
    constructor
    · intro source
      rw [handle_get (Engine.substitute?_eq_none plain id body)]
      apply Eval.Completes.traced
      apply Eval.Completes.visiting
      apply Eval.Completes.cached _ home id (hask .constant)
      exact .run hreach env.gateway (Body.confined_read hseat source)
    · intro target value
      rw [handle_set (Engine.substitute?_eq_none plain id body)]
      apply Eval.Completes.traced
      apply Eval.Completes.visiting
      exact .run hreach env.gateway (Body.confined_assign hseat target value)
    · exact hask

def Place.Fills (place : Place) (index : Nat) : Prop :=
  ∃ child, place.requiredChild index = .ok child

theorem fills_of_supplied {tree : Tree} {place : Place} (hplace : place ∈ tree.places)
    (h : Supplied place.subtree) {index : Nat} (hindex : index < place.subtree.slots.length) :
    place.Fills index := by
  obtain ⟨entry, hentry, _⟩ := h.exists_child (place.id + 1) hindex
  refine ⟨entry.1, ?_⟩
  rw [Place.requiredChild, children_of_mem_placesFrom hplace, childIds_of_child? hentry]

/-- The body of the node reaches filled slots only, and does not say that a child is missing. -/
structure Place.Confines (place : Place) : Prop where
  read : ∀ source, (place.subtree.body.read place.subtree.seat source).Confined place.Fills
  assign : ∀ target value,
    (place.subtree.body.assign place.subtree.seat target value).Confined place.Fills
  ask : ∀ question, (place.subtree.body.ask place.subtree.seat question).Confined place.Fills

theorem Supplied.confines {tree : Tree} (h : Supplied tree) {place : Place}
    (hplace : place ∈ tree.places) : place.Confines := by
  have hsub : Supplied place.subtree := h.sub (.of_lookUp (lookUp_of_mem hplace))
  have hfills : ∀ index, index < place.subtree.seat.slots → place.Fills index := by
    intro index hindex
    rw [slots_seat] at hindex
    exact fills_of_supplied hplace hsub hindex
  have hsuits : place.subtree.body.suits place.subtree.seat.slots = true := by
    rw [slots_seat]
    exact hsub.suits
  exact {
    read := fun source => (Body.confined_read hsuits source).mono hfills
    assign := fun target value => (Body.confined_assign hsuits target value).mono hfills
    ask := fun question =>
      (Body.confined_ask (Body.isStandard_of_suits hsuits) _ question).mono hfills }

end Tree

/-! ### Trees of sources -/

namespace Source

theorem Link.supplied {link : Link} (h : ∀ t ∈ link.arguments, t.Supplied) :
    link.tree.Supplied := by
  cases link with
  | property name => exact .leaf rfl
  | method name arguments => exact .node rfl h

theorem Formed.supplied {t : Tree} (h : Formed t) : t.Supplied := by
  induction h with
  | null | bool | int | float | string | property => exact .leaf rfl
  | @chain first links _ _ _ _ _ ihfirst ihlinks =>
    have hslots : some first :: links.map (fun link => some link.tree) =
        (first :: links.map Link.tree).map some := by
      rw [List.map_cons, List.map_map]
      rfl
    rw [hslots]
    refine .node (by simp [Body.suits]) fun t ht => ?_
    rcases List.mem_cons.1 ht with rfl | ht
    · exact ihfirst
    · obtain ⟨link, hlink, rfl⟩ := List.mem_map.1 ht
      exact Link.supplied (ihlinks link hlink)
  | arithmetic hcount _ _ _ ih =>
    exact .node (by simp only [Body.suits, decide_eq_true_iff]; omega) ih
  | @negate operand _ ih =>
    exact @Tree.Supplied.node _ [operand] rfl fun t ht => List.mem_singleton.1 ht ▸ ih
  | list _ ih | method _ _ ih | staticMethod _ _ _ _ ih => exact .node rfl ih

/-- In the tree of a source, without accessors, no get or set fails for a missing child or is cut
short, whatever the state, the context and the methods are; and no body uses a slot that is not
there. -/
theorem completes_of_parseExpression {source : String} {t : Tree}
    (h : parseExpression source = .ok t) {env : Env} {home : TreeId} (plain : env.Plain home) :
    (t.entrance env home).Completes ∧
      ∀ place ∈ t.places, (t.handleAt env home place.id).Completes ∧ place.Confines := by
  have hsupplied := (formed_of_parseExpression h).supplied
  rw [Tree.entrance_eq_handle plain]
  refine ⟨hsupplied.completes plain 0, fun place hplace => ⟨?_, hsupplied.confines hplace⟩⟩
  have hlookUp := Tree.lookUp_of_mem hplace
  rw [Tree.handleAt, hlookUp]
  exact (hsupplied.sub (.of_lookUp hlookUp)).completes plain place.id

theorem completes_negated_path :
    ∃ t, parseExpression "-a.b" = .ok t ∧ t.size = 4 ∧ (t.entrance {} 0).Completes ∧
      ∀ place ∈ t.places, (t.handleAt {} 0 place.id).Completes ∧ place.Confines := by
  have hparse : parseExpression "-a.b" = .ok (.node .negate [some (.node .chain
      [some (.node (.property "a") []), some (.node (.property "b") [])])]) :=
    parseExpression_eq_ok_iff.2 ⟨[.mark 0 '-' false, .name 1 "a", .mark 2 '.' false, .name 3 "b"],
      .unary "-" 0 (.field (.path ["a"] true [.name 1 "a"]) "b"), rfl, rfl, rfl⟩
  exact ⟨_, hparse, rfl, completes_of_parseExpression hparse fun _ => rfl⟩

end Source
end ObjectNavigation
