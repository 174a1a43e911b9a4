import ObjectNavigation.Proofs.Trace.Use

/-!
The stack in the hands of the owner of a trace. Beside the trace goes the list of the records that
were pushed and not popped yet (`Trace.stacked`), innermost first. The trace itself has no such
list: it follows the parent links from its current record, and a link is made when a record is
pushed onto another one and stays when it is popped. A record that is then pushed onto the empty
stack brings its link along. The trace shows the stack at all times exactly if that never happens
(`Trace.shows_stacked_iff`).
-/

namespace ObjectNavigation

namespace Pool

/-- Parent links lead from `start` along `path`, and end there. -/
inductive Leads (pool : Pool) : Option CallId → List CallId → Prop where
  | nil : Leads pool none []
  | cons {id : CallId} {path : List CallId} :
    Leads pool ((pool.get? id).bind Call.parent) path → Leads pool (some id) (id :: path)

namespace Leads
variable {pool other : Pool} {start : Option CallId} {path : List CallId}

theorem head? (leads : pool.Leads start path) : start = path.head? := by
  cases leads <;> rfl

theorem of_some {id : CallId} (leads : pool.Leads (some id) (id :: path)) :
    pool.Leads ((pool.get? id).bind Call.parent) path := by
  cases leads with
  | cons rest => exact rest

theorem congr (leads : pool.Leads start path)
    (same : ∀ id ∈ path, (other.get? id).bind Call.parent = (pool.get? id).bind Call.parent) :
    other.Leads start path := by
  induction leads with
  | nil => exact .nil
  | @cons id path _ ih =>
    have hrest := ih fun x hx => same x (List.mem_cons_of_mem _ hx)
    rw [← same id List.mem_cons_self] at hrest
    exact .cons hrest

theorem go_eq (leads : pool.Leads start path) {steps : Nat} (hsteps : path.length ≤ steps) :
    lineage.go pool steps start = path := by
  induction leads generalizing steps with
  | nil => cases steps <;> rfl
  | cons _ ih =>
    cases steps with
    | zero => cases hsteps
    | succ steps => rw [lineage.go, ih (Nat.le_of_succ_le_succ hsteps)]

/-- Records that are linked to each other lead nowhere. -/
theorem not_of_loop {a b : CallId} (ha : (pool.get? a).bind Call.parent = some b)
    (hb : (pool.get? b).bind Call.parent = some a) (path : List CallId) :
    ¬ pool.Leads (some a) path ∧ ¬ pool.Leads (some b) path := by
  induction path with
  | nil => exact ⟨nofun, nofun⟩
  | cons id path ih =>
    constructor
    · rintro (_ | rest)
      rw [ha] at rest
      exact ih.2 rest
    · rintro (_ | rest)
      rw [hb] at rest
      exact ih.1 rest

end Leads
end Pool

namespace Trace

/-! ### The stack beside the trace -/

/-- The records on the stack after a use, innermost first. -/
def Use.restack (stack : List CallId) : Use → List CallId
  | push id => id :: stack
  | pop => stack.tail
  | _ => stack

/-- The records that were pushed and not popped yet, innermost first. -/
def stacked (stack : List CallId) (uses : List Use) : List CallId :=
  uses.foldl Use.restack stack

/-- What manual tracing consists of: records are created, written, popped, and pushed as long as
they are live and not on the stack. -/
def Use.Manual (trace : Trace) (stack : List CallId) : Use → Prop
  | create .. | pop | result .. | failure .. => True
  | push id => (trace.pool.get? id).isSome ∧ id ∉ stack
  | recycle _ | complete .. | clearLast | reset => False

def Manual (trace : Trace) (stack : List CallId) : List Use → Prop
  | [] => True
  | use :: rest => use.Manual trace stack ∧ Manual (use.on trace) (use.restack stack) rest

/-- Every record that is pushed onto the empty stack is without a parent link then. -/
def Unlinked (trace : Trace) (stack : List CallId) : List Use → Prop
  | [] => True
  | use :: rest =>
    (∀ id, use = .push id → stack = [] → (trace.pool.get? id).bind Call.parent = none) ∧
      Unlinked (use.on trace) (use.restack stack) rest

/-- What the owner of a trace sees of the stack. -/
structure Shows (trace : Trace) (stack : List CallId) : Prop where
  pop : trace.pop.1 = stack.head?
  current : trace.current = stack.head?
  root : trace.root = stack.getLast?
  /-- The count of the records on the stack comes to an end. -/
  ends : ∃ path, trace.pool.Leads trace.current path
  depth : trace.depth = stack.length

/-- The stack is where the parent links lead. -/
structure Stands (trace : Trace) (stack : List CallId) : Prop where
  sound : trace.pool.Sound
  live : ∀ id ∈ stack, (trace.pool.get? id).isSome
  nodup : stack.Nodup
  leads : trace.pool.Leads trace.current stack
  root : trace.root = stack.getLast?

namespace Stands
variable {trace : Trace} {stack : List CallId}

theorem shows (stands : trace.Stands stack) : trace.Shows stack where
  pop := by
    rw [← stands.leads.head?, Trace.pop]
    split
    next hnone => exact hnone.symm
    next popped hsome => exact hsome.symm
  current := stands.leads.head?
  root := stands.root
  ends := ⟨stack, stands.leads⟩
  depth := by
    have hlength := Pool.length_le_size stands.nodup stands.live
    rw [depth, Pool.lineage, stands.leads.go_eq (Nat.le_succ_of_le hlength)]

theorem keep (stands : trace.Stands stack) {pool : Pool} (sound : pool.Sound)
    (live : ∀ id ∈ stack, (pool.get? id).isSome)
    (same : ∀ id ∈ stack, (pool.get? id).bind Call.parent =
      (trace.pool.get? id).bind Call.parent) :
    ({ trace with pool } : Trace).Stands stack :=
  ⟨sound, live, stands.nodup, stands.leads.congr same, stands.root⟩

theorem create (stands : trace.Stands stack) (node : NodeId) (kind : Kind) (source : Value)
    (setter : Bool) :
    ({ trace with pool := (trace.pool.create node kind source setter).2 } : Trace).Stands
      stack := by
  have hmade := stands.sound.create node kind source setter
  have hold : ∀ id ∈ stack, (trace.pool.create node kind source setter).2.get? id =
      trace.pool.get? id := by
    intro id hid
    rw [hmade.get?, if_neg]
    rintro rfl
    have hlive := stands.live _ hid
    rw [hmade.fresh] at hlive
    cases hlive
  refine stands.keep hmade.sound (fun id hid => ?_) (fun id hid => ?_)
  · rw [hold id hid]
    exact stands.live id hid
  · rw [hold id hid]

theorem enter (stands : trace.Stands stack) (id : CallId)
    (outcome : Except EvalError (Option Value)) : (trace.enter id outcome).Stands stack := by
  have hget := fun x => Pool.get?_modify trace.pool id x (Call.live_ended outcome)
  refine stands.keep (stands.sound.modify id (Call.live_ended outcome)) (fun x hx => ?_)
    (fun x hx => ?_)
  · show ((trace.pool.modify id (Call.ended outcome)).get? x).isSome
    rw [hget]
    split
    next => simpa using stands.live x hx
    next => exact stands.live x hx
  · show ((trace.pool.modify id (Call.ended outcome)).get? x).bind Call.parent = _
    rw [hget]
    split
    next => cases trace.pool.get? x <;> simp [Call.parent_ended]
    next => rfl

/-- A record pushed onto another one is linked to it, whatever link it had. -/
theorem push_onto (stands : trace.Stands stack) {id top : CallId}
    (live : (trace.pool.get? id).isSome) (new : id ∉ stack) (htop : stack.head? = some top) :
    (trace.push id).Stands (id :: stack) := by
  have hcurrent : trace.current = some top := stands.leads.head?.trans htop
  have hne : top ≠ id := fun h => new (h ▸ List.mem_of_mem_head? htop)
  have hpush : trace.push id =
      { trace with pool := trace.pool.attach top id, current := some id } := by
    rw [push, hcurrent]
  have hlive : ∀ x ∈ id :: stack, ((trace.pool.attach top id).get? x).isSome := by
    intro x hx
    rw [Pool.isSome_get?_attach trace.pool hne]
    rcases List.mem_cons.1 hx with rfl | hx
    · exact live
    · exact stands.live x hx
  have hlink : ((trace.pool.attach top id).get? id).bind Call.parent = trace.current := by
    obtain ⟨call, hcall⟩ := Option.isSome_iff_exists.1 live
    rw [Pool.get?_attach trace.pool hne, if_neg hne.symm, if_pos rfl, hcall, hcurrent]
    rfl
  -- No record on the stack is linked anew, as the pushed one is not among them.
  have hleads : (trace.pool.attach top id).Leads trace.current stack := by
    refine stands.leads.congr fun x hx => ?_
    have hx' : x ≠ id := fun h => new (h ▸ hx)
    rw [Pool.get?_attach trace.pool hne, if_neg hx']
    split
    next => cases trace.pool.get? x <;> rfl
    next => rfl
  rw [hpush]
  refine ⟨stands.sound.attach top id, hlive, List.nodup_cons.2 ⟨new, stands.nodup⟩,
    .cons (hlink ▸ hleads), ?_⟩
  rw [stands.root]
  cases stack with
  | nil => cases htop
  | cons first rest => rw [List.getLast?_cons_cons]

theorem push_first (stands : trace.Stands []) {id : CallId} (live : (trace.pool.get? id).isSome)
    (unlinked : (trace.pool.get? id).bind Call.parent = none) : (trace.push id).Stands [id] := by
  have hcurrent : trace.current = none := stands.leads.head?
  have hpush : trace.push id =
      { trace with root := some id, pending := none, current := some id } := by
    rw [push, hcurrent]
  rw [hpush]
  refine ⟨stands.sound, List.forall_mem_singleton.2 live,
    List.nodup_cons.2 ⟨List.not_mem_nil, .nil⟩, .cons ?_, rfl⟩
  rw [unlinked]
  exact .nil

/-- What is seen after a record was pushed onto the empty stack tells that it had no link. -/
theorem unlinked_of_shows (stands : trace.Stands []) {id : CallId}
    (live : (trace.pool.get? id).isSome) (shows : (trace.push id).Shows [id]) :
    (trace.pool.get? id).bind Call.parent = none := by
  have hcurrent : trace.current = none := stands.leads.head?
  have hpush : trace.push id =
      { trace with root := some id, pending := none, current := some id } := by
    rw [push, hcurrent]
  have hdepth := shows.depth
  rw [hpush, depth, Pool.lineage, Pool.lineage.go] at hdepth
  obtain ⟨call, hcall⟩ := Option.isSome_iff_exists.1 live
  have hsize := Pool.lt_size_of_get? hcall
  cases hparent : (trace.pool.get? id).bind Call.parent with
  | none => rfl
  | some above =>
    obtain ⟨steps, hsteps⟩ := Nat.exists_eq_succ_of_ne_zero (Nat.ne_zero_of_lt hsize)
    simp only [hparent, hsteps, Pool.lineage.go] at hdepth
    cases hdepth

theorem pop (stands : trace.Stands stack) : trace.pop.2.Stands stack.tail := by
  have hcurrent := stands.leads.head?
  cases stack with
  | nil =>
    rw [Trace.pop, hcurrent]
    exact stands
  | cons id rest =>
    have hleads := stands.leads
    rw [hcurrent] at hleads
    have hrest := hleads.of_some
    rw [Trace.pop, hcurrent]
    refine ⟨stands.sound, fun x hx => stands.live x (List.mem_cons_of_mem _ hx),
      (List.nodup_cons.1 stands.nodup).2, hrest, ?_⟩
    show (if ((trace.pool.get? id).bind Call.parent).isNone then none else trace.root) = _
    rw [hrest.head?, stands.root]
    cases rest <;> rfl

/-- One use keeps the stack where the parent links lead, unless it is the push of a linked record
onto the empty stack. -/
theorem on (stands : trace.Stands stack) {use : Use} (manual : use.Manual trace stack)
    (unlinked : ∀ id, use = .push id → stack = [] →
      (trace.pool.get? id).bind Call.parent = none) :
    (use.on trace).Stands (use.restack stack) := by
  cases use with
  | create node kind source setter => exact stands.create node kind source setter
  | push id =>
    obtain ⟨live, new⟩ := manual
    cases hstack : stack with
    | nil =>
      subst hstack
      exact stands.push_first live (unlinked id rfl rfl)
    | cons top rest =>
      subst hstack
      exact stands.push_onto live new rfl
  | pop => exact stands.pop
  | result id value => exact stands.enter id (.ok (some value))
  | failure id error => exact stands.enter id (.error error)
  | recycle | complete | clearLast | reset => exact manual.elim

end Stands

theorem Stands.shows_iff {trace : Trace} {stack : List CallId} (stands : trace.Stands stack)
    {uses : List Use} (manual : trace.Manual stack uses) :
    (∀ n, (trace.used (uses.take n)).Shows (stacked stack (uses.take n))) ↔
      trace.Unlinked stack uses := by
  -- The stack stands where the links lead until a push breaks that, which is seen at once.
  induction uses generalizing trace stack with
  | nil =>
    refine iff_of_true (fun n => ?_) trivial
    rw [List.take_nil]
    exact stands.shows
  | cons use rest ih =>
    obtain ⟨hfirst, hrest⟩ := manual
    constructor
    · intro shows
      have hunlinked : ∀ id, use = .push id → stack = [] →
          (trace.pool.get? id).bind Call.parent = none := by
        rintro id rfl rfl
        exact stands.unlinked_of_shows hfirst.1 (shows 1)
      exact ⟨hunlinked, (ih (stands.on hfirst hunlinked) hrest).1 fun n => shows (n + 1)⟩
    · rintro ⟨hunlinked, hlater⟩ n
      cases n with
      | zero => exact stands.shows
      | succ n => exact (ih (stands.on hfirst hunlinked) hrest).2 hlater n

/-- A trace with nothing in progress shows the stack at all times of manual tracing if and only if
every record that is pushed onto the empty stack is unlinked. -/
theorem shows_stacked_iff {trace : Trace} (sound : trace.pool.Sound)
    (current : trace.current = none) (root : trace.root = none) {uses : List Use}
    (manual : trace.Manual [] uses) :
    (∀ n, (trace.used (uses.take n)).Shows (stacked [] (uses.take n))) ↔
      trace.Unlinked [] uses := by
  have stands : trace.Stands [] := by
    refine ⟨sound, by simp, .nil, ?_, root⟩
    rw [current]
    exact .nil
  exact stands.shows_iff manual

/-- Three records are stacked in one order and then, but for the outermost, in another one. -/
def restacked : List Use :=
  [.create 0 .const .null false, .create 1 .const .null false, .create 2 .const .null false,
    .push 0, .push 1, .push 2, .pop, .pop, .push 2, .push 1, .pop, .pop, .pop, .pop, .push 0]

theorem restacked_shown :
    ({} : Trace).Manual [] restacked ∧
      ∀ n, (({} : Trace).used (restacked.take n)).Shows (stacked [] (restacked.take n)) := by
  have manual : ({} : Trace).Manual [] restacked := by
    refine ⟨trivial, trivial, trivial, ?_, ?_, ?_, trivial, trivial, ?_, ?_, trivial, trivial,
      trivial, trivial, ?_, trivial⟩
    all_goals exact ⟨by decide, by decide⟩
  refine ⟨manual, (shows_stacked_iff Pool.Sound.empty rfl rfl manual).2 ?_⟩
  refine ⟨nofun, nofun, nofun, ?_, ?_, ?_, nofun, nofun, ?_, ?_, nofun, nofun, nofun, nofun, ?_,
    trivial⟩
  all_goals
    rintro id ⟨⟩ _
    first | decide | contradiction

/-- Two records are stacked, and later the inner one is pushed alone. -/
def reused : List Use :=
  [.create 0 .const .null false, .create 1 .const .null false, .push 0, .push 1, .pop, .pop,
    .push 1]

/-- The record that it was pushed onto is counted, is what its pop leads to, and when that record
is pushed too then the count never ends. -/
theorem reused_not_shown :
    ({} : Trace).Manual [] (reused ++ [.push 0]) ∧
      (stacked [] reused = [1] ∧ (after reused).depth = 2) ∧
      (stacked [] (reused ++ [.pop]) = [] ∧ (after (reused ++ [.pop])).current = some 0) ∧
      ∀ path, ¬ (after (reused ++ [.push 0])).pool.Leads
        (after (reused ++ [.push 0])).current path := by
  refine ⟨⟨trivial, trivial, ⟨by decide, by decide⟩, ⟨by decide, by decide⟩, trivial, trivial,
    ⟨by decide, by decide⟩, ⟨by decide, by decide⟩, trivial⟩, by decide, by decide, fun path => ?_⟩
  have hcurrent : (after (reused ++ [.push 0])).current = some 0 := by decide
  rw [hcurrent]
  exact (Pool.Leads.not_of_loop (b := 1) (by decide) (by decide) path).1

end Trace
end ObjectNavigation
