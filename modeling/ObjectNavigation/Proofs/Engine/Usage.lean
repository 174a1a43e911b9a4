import ObjectNavigation.Proofs.Engine.Layers
import ObjectNavigation.Proofs.Engine.Session
import ObjectNavigation.Proofs.Trace.Use

/-!
Contexts in use. Between calls of any kind, records may be created by hand and pushed, so that the
calls that follow are recorded below them, and a call may be cut short and leave its records where
they are. The records of a context are those of frames and branches all the same, besides those that
were created and not pushed yet (`Used.shape`), and a reset leaves these alone in use.
-/

namespace ObjectNavigation

/-- The records come to frames and branches again, and the same calls are in progress unless the
computation was cut short. -/
def Watched.Shapes {α : Type} (watched : Watched α) : Prop :=
  ∀ world frames kept spare, Shape world.context.trace frames kept spare →
    ∃ frames' kept', Shape (watched.act world).2.context.trace frames' kept' spare ∧
      ((watched.act world).1.isOk = true → frames'.map Frame.id = frames.map Frame.id)

namespace Watched.Shapes
variable {α β : Type}

theorem andThen {first : Watched α} {next : Except EvalError α → Watched β} (hfirst : first.Shapes)
    (hnext : ∀ outcome, (next outcome).Shapes) : (first.andThen next).Shapes := by
  intro world frames kept spare shape
  obtain ⟨inside, kept', hshape, hsame⟩ := hfirst world frames kept spare shape
  simp only [Watched.andThen, Eval.andThen]
  rcases hact : first.act world with ⟨misuse | outcome, after⟩
  · rw [hact] at hshape
    exact ⟨inside, kept', hshape, fun h => absurd h Bool.false_ne_true⟩
  · rw [hact] at hshape hsame
    obtain ⟨frames', kept'', hafter, hstack⟩ := hnext outcome after inside kept' spare hshape
    exact ⟨frames', kept'', hafter, fun h => (hstack h).trans (hsame rfl)⟩

theorem traced {inner : Watched α} (h : inner.Shapes) (node : NodeId) (kind : Kind)
    (object : Value) (setter : Bool) (result : α → Option Value) :
    (Watched.traced node kind object setter result inner).Shapes := by
  intro world frames kept spare shape
  have hbegun := shape.begin (shape.sound.create node kind object setter)
  simp only [Watched.traced, Engine.traced]
  split
  next =>
    generalize Trace.push _ _ = begun at hbegun ⊢
    obtain ⟨inside, kept', hshape, hsame⟩ := h (world.withTrace begun) _ _ _ hbegun
    unfold Eval.andThen
    rcases hact : inner.act (world.withTrace begun) with ⟨misuse | outcome, after⟩
    · rw [hact] at hshape
      exact ⟨inside, kept', hshape, fun h => absurd h Bool.false_ne_true⟩
    · rw [hact] at hshape hsame
      obtain ⟨frame, outer, rfl, hid, hstack⟩ := List.map_eq_cons_iff.1 (hsame rfl)
      have hended := hshape.complete (outcome.map result) after.context.settings.keep
      rw [show frame.id = _ from hid] at hended
      exact ⟨_, _, hended, fun _ => (frame.map_id_remaining _ outer).trans hstack⟩
  next => exact h world frames kept spare shape

end Watched.Shapes

theorem Watched.hereditary_shapes : Hereditary fun _ watched => watched.Shapes where
  silent h world frames kept _ shape := ⟨frames, kept, h world ▸ shape, fun _ => rfl⟩
  andThen hfirst hnext := hfirst.andThen hnext
  choose h world := h world world
  within h hchange world frames kept spare shape :=
    h _ frames kept spare (hchange world ▸ shape)
  get node kind source _ h := h.traced node kind source false some
  set node kind target _ h := h.traced node kind target true fun _ => none

/-- The context can be reached, whatever trees, bodies and graphs it was used with. The records
`waiting` were created by hand and not pushed yet. -/
inductive Used : List CallId → Context → Prop where
  | fresh (settings : Settings) (gateway : Option RegistryId) : Used [] { settings, gateway }
  | get {waiting : List CallId} {context : Context} (used : Used waiting context)
      (workspace : Workspace) (entry : Entry) (source : Value) :
      Used waiting (workspace.perform context ((workspace.handle context entry).get source)).2.1
  | set {waiting : List CallId} {context : Context} (used : Used waiting context)
      (workspace : Workspace) (entry : Entry) (target value : Value) :
      Used waiting
        (workspace.perform context ((workspace.handle context entry).set target value)).2.1
  | configure {waiting : List CallId} {context : Context} (used : Used waiting context)
      (settings : Settings) (gateway : Option RegistryId) :
      Used waiting { context with settings, gateway }
  | visit {waiting : List CallId} {context : Context} (used : Used waiting context)
      (node : NodeId) (object : Value) : Used waiting (context.visit node object)
  | create {waiting : List CallId} {context : Context} (used : Used waiting context)
      (node : NodeId) (kind : Kind) (object : Value) (setter : Bool) {id : CallId} {pool : Pool}
      (created : context.trace.pool.create node kind object setter = (id, pool)) :
      Used (id :: waiting) { context with trace := { context.trace with pool } }
  | push {waiting : List CallId} {context : Context} (used : Used waiting context) {id : CallId}
      (h : id ∈ waiting) :
      Used (waiting.erase id) { context with trace := context.trace.push id }
  | clearLast {waiting : List CallId} {context : Context} (used : Used waiting context) :
      Used waiting { context with trace := context.trace.clearLast }
  | reset {waiting : List CallId} {context : Context} (used : Used waiting context) :
      Used waiting context.reset

theorem Pool.Stores.inUse_eq {pool : Pool} {branches : List Branch}
    (stores : pool.Stores branches) : pool.inUse = (Branch.idsAll branches).length := by
  have hperm : ((List.range pool.records.size).filter fun id => (pool.get? id).isSome).Perm
      (Branch.idsAll branches) := by
    refine (List.perm_ext_iff_of_nodup (List.nodup_range.filter _) stores.nodup).2 fun id => ?_
    rw [List.mem_filter, List.mem_range, stores.live, and_iff_right_iff_imp, ← stores.live]
    intro hlive
    obtain ⟨call, hcall⟩ := Option.isSome_iff_exists.1 hlive
    exact Pool.lt_size_of_get? hcall
  rw [stores.sound.inUse_eq, ← pool.countP_get?, List.countP_eq_length_filter, hperm.length_eq]

def Branch.IsNew (branch : Branch) : Prop :=
  ∃ node kind object setter,
    branch = ⟨branch.id, { node, kind, source := object, setter }, []⟩

theorem Branch.idsAll_of_isNew {branches : List Branch}
    (h : ∀ branch ∈ branches, branch.IsNew) : idsAll branches = branches.map Branch.id := by
  induction branches with
  | nil => rfl
  | cons branch rest ih =>
    obtain ⟨⟨node, kind, object, setter, heq⟩, hrest⟩ := List.forall_mem_cons.1 h
    rw [idsAll, ih hrest, heq]
    rfl

namespace Workspace
variable {workspace : Workspace} {context : Context} {frames : List Frame} {kept : Option Branch}
  {spare : List Branch}

theorem shape_perform {α : Type} {watched : Watched α} (h : watched.Shapes) {act : Eval α}
    (hact : watched.act = act) (shape : Shape context.trace frames kept spare) :
    ∃ frames' kept', Shape (workspace.perform context act).2.1.trace frames' kept' spare := by
  obtain ⟨frames', kept', hshape, _⟩ := h (workspace.world context) frames kept spare shape
  exact ⟨frames', kept', hact ▸ hshape⟩

theorem act_get_watch (workspace : Workspace) (context : Context) (entry : Entry)
    (source : Value) : ((workspace.watch context entry).get source).act =
      (workspace.handle context entry).get source := by
  rw [← workspace.handle_watch]
  rfl

theorem act_set_watch (workspace : Workspace) (context : Context) (entry : Entry)
    (target value : Value) : ((workspace.watch context entry).set target value).act =
      (workspace.handle context entry).set target value := by
  rw [← workspace.handle_watch]
  rfl

theorem shapes_watch (workspace : Workspace) (context : Context) (entry : Entry) :
    (workspace.watch context entry).Has fun _ watched => watched.Shapes :=
  has_watched Watched.hereditary_shapes workspace _ _ entry

end Workspace

namespace Used
variable {waiting : List CallId} {context : Context}

/-- The records of a used context are those of frames, of what is retained, and those that wait. -/
theorem shape (used : Used waiting context) :
    ∃ frames kept spare, Shape context.trace frames kept spare ∧ (∀ branch ∈ spare, branch.IsNew) ∧
      (spare.map Branch.id).Perm waiting := by
  induction used with
  | fresh settings gateway => exact ⟨[], none, [], .empty, nofun, .nil⟩
  | @get waiting context used workspace entry source ih =>
    obtain ⟨frames, kept, spare, hshape, hnew, hperm⟩ := ih
    obtain ⟨frames', kept', hafter⟩ := Workspace.shape_perform
      ((workspace.shapes_watch context entry).get source)
      (workspace.act_get_watch context entry source) hshape
    exact ⟨frames', kept', spare, hafter, hnew, hperm⟩
  | @set waiting context used workspace entry target value ih =>
    obtain ⟨frames, kept, spare, hshape, hnew, hperm⟩ := ih
    obtain ⟨frames', kept', hafter⟩ := Workspace.shape_perform
      ((workspace.shapes_watch context entry).set target value)
      (workspace.act_set_watch context entry target value) hshape
    exact ⟨frames', kept', spare, hafter, hnew, hperm⟩
  | configure used settings gateway ih => exact ih
  | visit used node object ih => exact ih
  | @create waiting context used node kind object setter id pool created ih =>
    obtain ⟨frames, kept, spare, hshape, hnew, hperm⟩ := ih
    have hcreates := hshape.sound.create node kind object setter
    rw [created] at hcreates
    refine ⟨frames, kept, _, hshape.create hcreates, ?_, hperm.cons id⟩
    exact List.forall_mem_cons.2 ⟨⟨node, kind, object, setter, rfl⟩, hnew⟩
  | @push waiting context used id h ih =>
    obtain ⟨frames, kept, spare, hshape, hnew, hperm⟩ := ih
    obtain ⟨branch, hbranch, rfl⟩ := List.mem_map.1 (hperm.mem_iff.2 h)
    obtain ⟨before, after, rfl⟩ := List.append_of_mem hbranch
    -- The record that is pushed is taken out from among those that wait.
    have hfirst : (before ++ branch :: after).Perm (branch :: (before ++ after)) :=
      List.perm_middle
    obtain ⟨node, kind, object, setter, heq⟩ := hnew branch hbranch
    have hspare := hshape.perm hfirst
    rw [heq] at hspare
    refine ⟨_, kept, before ++ after, hspare.push, fun other hother => hnew other ?_, ?_⟩
    · exact hfirst.mem_iff.2 (List.mem_cons_of_mem _ hother)
    · refine (List.cons_perm_iff_perm_erase.1 ?_).2
      exact (hfirst.map Branch.id).symm.trans hperm
  | clearLast used ih =>
    obtain ⟨frames, kept, spare, hshape, hnew, hperm⟩ := ih
    exact ⟨frames, none, spare, hshape.clearLast, hnew, hperm⟩
  | reset used ih =>
    obtain ⟨frames, kept, spare, hshape, hnew, hperm⟩ := ih
    exact ⟨[], none, spare, hshape.reset, hnew, hperm⟩

/-- A reset leaves in use what was created by hand and never pushed, and no more. -/
theorem inUse_reset (used : Used waiting context) :
    context.reset.trace.pool.inUse = waiting.length := by
  obtain ⟨frames, kept, spare, hshape, hnew, hperm⟩ := used.shape
  have hstores := hshape.reset.stores.inUse_eq
  rw [Option.toList_none, List.append_nil, Branch.idsAll_of_isNew hnew, hperm.length_eq] at hstores
  exact hstores

end Used
end ObjectNavigation
