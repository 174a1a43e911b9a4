import ObjectNavigation.Proofs.Engine.Activation

/-!
Properties of all computations of the engine. What holds of a computation that uses no node, and
goes from the parts of a computation to the whole, holds of every use of a watched tree, whatever
bodies and accessors do (`Workspace.has_watched`).
-/

namespace ObjectNavigation

/-- The property goes through all layers of an evaluation. -/
structure Hereditary (P : (α : Type) → Watched α → Prop) : Prop where
  silent : ∀ {α : Type} {act : Eval α},
    (∀ world, (act world).2.context.trace = world.context.trace) → P α (.silent act)
  andThen : ∀ {α β : Type} {first : Watched α} {next : Except EvalError α → Watched β},
    P α first → (∀ outcome, P β (next outcome)) → P β (first.andThen next)
  choose : ∀ {α : Type} {pick : World → Watched α},
    (∀ world, P α (pick world)) → P α (.choose pick)
  within : ∀ {α : Type} {change : World → World} {watched : Watched α}, P α watched →
    (∀ world, (change world).context.trace = world.context.trace) → P α (watched.within change)
  get : ∀ (node : NodeId) (kind : Kind) (source : Value) {inner : Watched Value}, P Value inner →
    P Value (.traced node kind source false some inner)
  set : ∀ (node : NodeId) (kind : Kind) (target : Value) {inner : Watched Unit}, P Unit inner →
    P Unit (.traced node kind target true (fun _ => none) inner)

structure WatchedHandle.Has (P : (α : Type) → Watched α → Prop) (handle : WatchedHandle) :
    Prop where
  get : ∀ source, P Value (handle.get source)
  set : ∀ target value, P Unit (handle.set target value)
  ask : ∀ question, P Bool (handle.ask question)

theorem trace_invoke (gateway : Option Registry) (call : Invocation) (world : World) :
    (invoke gateway call world).2.context.trace = world.context.trace := by
  cases gateway <;> rfl

namespace Hereditary
variable {P : (α : Type) → Watched α → Prop} (hereditary : Hereditary P)
include hereditary

theorem kept (tree : TreeId) (node : NodeId) {act : Watched Value} (hact : P Value act) :
    P Value (.kept tree node act) := by
  refine hereditary.choose fun world => ?_
  cases (world.constants.cell tree node).value with
  | some value => exact hereditary.silent fun _ => rfl
  | none => exact hact

theorem keeping (tree : TreeId) (node : NodeId) {act : Watched Value} (hact : P Value act) :
    P Value (.keeping tree node act) := by
  refine hereditary.andThen hact fun outcome => ?_
  cases outcome with
  | error error => exact hereditary.silent fun _ => rfl
  | ok value => exact hereditary.silent fun _ => rfl

theorem cached (tree : TreeId) (node : NodeId) {constant : Watched Bool} {act : Watched Value}
    (hconstant : P Bool constant) (hact : P Value act) :
    P Value (.cached tree node constant act) := by
  refine hereditary.choose fun world => ?_
  split
  next => exact hereditary.kept tree node hact
  next =>
    refine hereditary.within (hereditary.andThen hconstant fun outcome => ?_) fun _ => rfl
    match outcome with
    | .error _ => exact hereditary.silent fun _ => rfl
    | .ok true => exact hereditary.keeping tree node hact
    | .ok false => exact hereditary.kept tree node hact

theorem absent (error : EvalError) : (WatchedHandle.silent (.absent error)).Has P where
  get _ := hereditary.silent fun _ => rfl
  set _ _ := hereditary.silent fun _ => rfl
  ask _ := hereditary.silent fun _ => rfl

theorem stray (misuse : Misuse) : (WatchedHandle.silent (.stray misuse)).Has P where
  get _ := hereditary.silent fun _ => rfl
  set _ _ := hereditary.silent fun _ => rfl
  ask _ := hereditary.silent fun _ => rfl

theorem watch {C α : Type} {reach : C → WatchedHandle} (hreach : ∀ child, (reach child).Has P)
    (gateway : Option Registry) (script : Script C α) : P α (script.watch reach gateway) := by
  induction script with
  | done outcome => exact hereditary.silent fun _ => rfl
  | get child source next ih => exact hereditary.andThen ((hreach child).get source) ih
  | set child target value next ih => exact hereditary.andThen ((hreach child).set target value) ih
  | ask child question next ih => exact hereditary.andThen ((hreach child).ask question) ih
  | invoke call next ih =>
    exact hereditary.andThen (hereditary.silent (trace_invoke gateway call)) ih
  | look next ih => exact hereditary.choose fun world => ih _
  | locate next ih => exact hereditary.choose fun world => ih _
  | alter change next ih => exact hereditary.within ih fun _ => rfl

/-! ### Trees -/

theorem reach {child : Nat → Option WatchedHandle}
    (hchild : ∀ index, ∀ handle ∈ child index, handle.Has P) (kind : Kind) (index : Nat) :
    (Watched.reach kind child index).Has P := by
  unfold Watched.reach
  cases h : child index with
  | none => exact hereditary.absent _
  | some handle => exact hchild index handle h

theorem node (env : Env) {enter : Entry → WatchedHandle} (henter : ∀ entry, (enter entry).Has P)
    (tree : TreeId) (id : NodeId) (body : Body) (seat : Seat) {child : Nat → Option WatchedHandle}
    (hchild : ∀ index, ∀ handle ∈ child index, handle.Has P) :
    (Watched.node env enter tree id body seat child).Has P := by
  have hreach := hereditary.reach hchild body.kind
  refine ⟨fun source => ?_, fun target value => ?_, fun question => ?_⟩
  · refine hereditary.get _ _ _ (hereditary.within (hereditary.cached _ _ ?_ ?_) fun _ => rfl)
    · exact hereditary.watch hreach _ _
    · cases Engine.substitute? env tree id body with
      | none => exact hereditary.watch hreach _ _
      | some accessor => exact hereditary.watch henter _ _
  · refine hereditary.set _ _ _ (hereditary.within ?_ fun _ => rfl)
    cases Engine.substitute? env tree id body with
    | none => exact hereditary.watch hreach _ _
    | some accessor => exact hereditary.watch henter _ _
  · exact hereditary.watch hreach _ _

theorem watched (env : Env) {enter : Entry → WatchedHandle}
    (henter : ∀ entry, (enter entry).Has P) (home : TreeId) (id : NodeId) (tree : Tree) :
    (tree.watched env enter home id).Has P := by
  induction id, tree using Tree.child_induction with
  | node id body slots ih =>
    refine hereditary.node env henter home id body _ fun index handle hhandle => ?_
    rw [Tree.watchedChild_eq] at hhandle
    obtain ⟨entry, hentry, rfl⟩ := Option.map_eq_some_iff.1 hhandle
    exact ih index entry hentry

theorem watchedAt (env : Env) {enter : Entry → WatchedHandle}
    (henter : ∀ entry, (enter entry).Has P) (home : TreeId) (tree : Tree) (id : NodeId) :
    (tree.watchedAt env enter home id).Has P := by
  unfold Tree.watchedAt
  cases tree.lookUp id with
  | error misuse => exact hereditary.stray misuse
  | ok place => exact hereditary.watched env henter home id place.subtree

theorem watchedEntrance (env : Env) {enter : Entry → WatchedHandle}
    (henter : ∀ entry, (enter entry).Has P) (home : TreeId) (tree : Tree) :
    (tree.watchedEntrance env enter home).Has P := by
  have hroot := hereditary.watched env henter home 0 tree
  unfold Tree.watchedEntrance
  cases env.accessor home 0 with
  | none => exact hroot
  | some accessor =>
    exact ⟨fun source => hereditary.watch henter _ _,
      fun target value => hereditary.watch henter _ _, hroot.ask⟩

end Hereditary

theorem Workspace.has_watched {P : (α : Type) → Watched α → Prop} (hereditary : Hereditary P)
    (workspace : Workspace) (gateway : Option Registry) (depth : Nat) (entry : Entry) :
    (workspace.watched gateway depth entry).Has P := by
  induction depth generalizing entry with
  | zero => exact hereditary.stray _
  | succ depth ih =>
    simp only [watched]
    cases workspace.trees[entry.tree]? with
    | none => exact hereditary.stray _
    | some tree =>
      cases entry.node with
      | none => exact hereditary.watchedEntrance _ ih _ _
      | some node => exact hereditary.watchedAt _ ih _ _ node

end ObjectNavigation
