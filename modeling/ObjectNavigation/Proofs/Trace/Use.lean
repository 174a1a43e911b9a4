import ObjectNavigation.Proofs.Trace.Lineage
import Mathlib.Order.Bounds.Basic

/-!
Traces in the hands of their owner, who may create records, push and pop them, write results and
failures and give records back, in any order. Nothing is asked of that order: a record may be
pushed while it is on the stack, below itself or below several others, and given back while others
name it. The pool stays exact all the same (`Trace.pool_exact`).
-/

namespace ObjectNavigation

namespace Pool

theorem countP_range (calls : List Call) :
    (List.range calls.length).countP (fun id => (calls[id]?).any Call.live) =
      calls.countP Call.live := by
  induction calls with
  | nil => rfl
  | cons call rest ih =>
    rw [List.length_cons, List.range_succ_eq_map, List.countP_cons, List.countP_cons,
      List.countP_map, ← ih]
    rfl

theorem countP_get? (pool : Pool) :
    (List.range pool.records.size).countP (fun id => (pool.get? id).isSome) = pool.liveCount := by
  rw [liveCount, ← Array.countP_toList, ← countP_range]
  simp [get?, Option.isSome_filter]

theorem Sound.inUse_eq {pool : Pool} (sound : pool.Sound) : pool.inUse = pool.liveCount := by
  have hfree : pool.free.Perm
      ((List.range pool.records.size).filter fun id => ¬(pool.get? id).isSome) := by
    refine (List.perm_ext_iff_of_nodup sound.nodup (List.nodup_range.filter _)).2 fun id => ?_
    rw [sound.mem_free_iff, List.mem_filter, List.mem_range]
    simp
  have hall := List.length_eq_countP_add_countP (fun id => (pool.get? id).isSome)
    (l := List.range pool.records.size)
  rw [List.length_range, countP_get?, List.countP_eq_length_filter, ← hfree.length_eq] at hall
  rw [inUse, allocated, available, hall, Nat.add_sub_cancel]

theorem allocated_create (pool : Pool) (node : NodeId) (kind : Kind) (source : Value)
    (setter : Bool) :
    pool.allocated ≤ (pool.create node kind source setter).2.allocated ∧
      ((pool.create node kind source setter).2.allocated = pool.allocated ∨
        (pool.create node kind source setter).2.inUse =
          (pool.create node kind source setter).2.allocated) := by
  unfold create
  split
  next => simp [allocated]
  next hfree => simp [allocated, inUse, available, hfree]

/-- What does not hand out a record leaves a sound pool sound, and allocates none. -/
def Retains (pool next : Pool) : Prop :=
  pool.Sound → next.Sound ∧ next.allocated = pool.allocated

namespace Retains

theorem refl (pool : Pool) : pool.Retains pool :=
  fun sound => ⟨sound, rfl⟩

theorem trans {pool next last : Pool} (first : pool.Retains next) (second : next.Retains last) :
    pool.Retains last := by
  intro sound
  obtain ⟨hnext, hsize⟩ := first sound
  obtain ⟨hlast, hsize'⟩ := second hnext
  exact ⟨hlast, hsize'.trans hsize⟩

theorem modify (pool : Pool) (id : CallId) {change : Call → Call}
    (keeps : ∀ call, (change call).live = call.live) : pool.Retains (pool.modify id change) :=
  fun sound => ⟨sound.modify id keeps, Array.size_modify⟩

theorem attach (pool : Pool) (parent child : CallId) :
    pool.Retains (pool.attach parent child) := by
  refine (modify pool child ?_).trans (modify _ parent ?_)
  · exact fun _ => rfl
  · exact fun _ => rfl

theorem recycleAll (pool : Pool) (id : CallId) : pool.Retains (pool.recycleAll id).1 := by
  intro sound
  obtain ⟨gone, clears⟩ := sound.clears [id]
  exact ⟨clears.sound, clears.allocated⟩

end Retains

end Pool

namespace Trace

/-! ### Uses -/

/-- What is done with a trace: by its owner, and by a call that ends. -/
inductive Use where
  | create (node : NodeId) (kind : Kind) (source : Value) (setter : Bool)
  | push (id : CallId)
  | pop
  | result (id : CallId) (value : Value)
  | failure (id : CallId) (error : EvalError)
  | recycle (id : CallId)
  | complete (id : CallId) (outcome : Except EvalError (Option Value)) (keep : Bool)
  | clearLast
  | reset

def Use.on (trace : Trace) : Use → Trace
  | create node kind source setter =>
    { trace with pool := (trace.pool.create node kind source setter).2 }
  | push id => trace.push id
  | pop => trace.pop.2
  | result id value => trace.enter id (.ok (some value))
  | failure id error => trace.enter id (.error error)
  | recycle id => trace.recycle id
  | complete id outcome keep => trace.complete id outcome keep
  | clearLast => trace.clearLast
  | reset => trace.reset

def used (trace : Trace) (uses : List Use) : Trace :=
  uses.foldl Use.on trace

section
variable (trace : Trace)

theorem retains_push (id : CallId) : trace.pool.Retains (trace.push id).pool := by
  unfold push
  split
  next current _ => exact .attach trace.pool current id
  next => exact .refl trace.pool

theorem retains_pop : trace.pool.Retains trace.pop.2.pool := by
  unfold pop
  split
  next => exact .refl trace.pool
  next => exact .refl trace.pool

theorem retains_enter (id : CallId) (outcome : Except EvalError (Option Value)) :
    trace.pool.Retains (trace.enter id outcome).pool :=
  .modify trace.pool id (Call.live_ended outcome)

theorem retains_recycle? (id : Option CallId) : trace.pool.Retains (trace.recycle? id).pool := by
  cases id with
  | none => exact .refl trace.pool
  | some id => exact .recycleAll trace.pool id

theorem retains_settle (id : CallId) (failed keep : Bool) :
    trace.pool.Retains (trace.settle id failed keep).pool := by
  unfold settle
  split
  next => exact retains_recycle? { trace with pending := none } _
  next =>
    split
    next => exact retains_recycle? { trace with pending := none } _
    next => exact .recycleAll trace.pool id

theorem pool_markPending (id : CallId) (failed : Bool) :
    (trace.markPending id failed).pool = trace.pool := by
  unfold markPending
  split <;> rfl

theorem retains_complete (id : CallId) (outcome : Except EvalError (Option Value)) (keep : Bool) :
    trace.pool.Retains (trace.complete id outcome keep).pool := by
  have hend (failed : Bool) (marked : Trace)
      (hmarked : (trace.pop.2.enter id outcome).markPending id failed = marked) :
      trace.pool.Retains
        (if marked.root.isSome then marked else marked.settle id failed keep).pool := by
    have hkept : trace.pool.Retains marked.pool := by
      rw [← hmarked, pool_markPending]
      exact trace.retains_pop.trans (retains_enter _ id outcome)
    split
    next => exact hkept
    next => exact hkept.trans (marked.retains_settle id failed keep)
  exact hend _ _ rfl

theorem retains_clearLast : trace.pool.Retains trace.clearLast.pool :=
  trace.retains_recycle? trace.last

theorem retains_reset : trace.pool.Retains trace.reset.pool :=
  trace.retains_clearLast.trans (retains_recycle? trace.clearLast trace.clearLast.root)

end

/-- If a use allocates, then all records there are after it are in use. -/
theorem Use.sound_and_allocated {trace : Trace} (sound : trace.pool.Sound) (use : Use) :
    (use.on trace).pool.Sound ∧ trace.pool.allocated ≤ (use.on trace).pool.allocated ∧
      ((use.on trace).pool.allocated = trace.pool.allocated ∨
        (use.on trace).pool.inUse = (use.on trace).pool.allocated) := by
  have hretains (h : trace.pool.Retains (use.on trace).pool) :
      (use.on trace).pool.Sound ∧ trace.pool.allocated ≤ (use.on trace).pool.allocated ∧
      ((use.on trace).pool.allocated = trace.pool.allocated ∨
        (use.on trace).pool.inUse = (use.on trace).pool.allocated) := by
    obtain ⟨hsound, hsize⟩ := h sound
    exact ⟨hsound, hsize.ge, .inl hsize⟩
  cases use with
  | create node kind source setter =>
    refine ⟨(sound.create node kind source setter).sound, ?_⟩
    exact trace.pool.allocated_create node kind source setter
  | push id => exact hretains (trace.retains_push id)
  | pop => exact hretains trace.retains_pop
  | result id value => exact hretains (trace.retains_enter id (.ok (some value)))
  | failure id error => exact hretains (trace.retains_enter id (.error error))
  | recycle id => exact hretains (.recycleAll trace.pool id)
  | complete id outcome keep => exact hretains (trace.retains_complete id outcome keep)
  | clearLast => exact hretains trace.retains_clearLast
  | reset => exact hretains trace.retains_reset

theorem used_sound {trace : Trace} (sound : trace.pool.Sound) (uses : List Use) :
    (trace.used uses).pool.Sound := by
  induction uses generalizing trace with
  | nil => exact sound
  | cons use rest ih => exact ih (use.sound_and_allocated sound).1

/-- The records there are in the end were there in the beginning, or all in use at some time. -/
theorem used_allocated (trace : Trace) (sound : trace.pool.Sound) (uses : List Use) :
    ((trace.used uses).pool.allocated = trace.pool.allocated ∨
        ∃ n, (trace.used (uses.take n)).pool.inUse = (trace.used uses).pool.allocated) ∧
      ∀ n, (trace.used (uses.take n)).pool.allocated ≤ (trace.used uses).pool.allocated := by
  induction uses generalizing trace with
  | nil => exact ⟨.inl rfl, fun n => by simp⟩
  | cons use rest ih =>
    obtain ⟨hsound, hle, hstep⟩ := use.sound_and_allocated sound
    obtain ⟨hrest, hbound⟩ := ih (use.on trace) hsound
    refine ⟨?_, fun n => ?_⟩
    · rcases hrest with hrest | ⟨n, hn⟩
      · exact hstep.imp hrest.trans fun hfull => ⟨1, hfull.trans hrest.symm⟩
      · exact .inr ⟨n + 1, hn⟩
    · cases n with
      | zero => exact hle.trans (hbound 0)
      | succ n => exact hbound n

def after (uses : List Use) : Trace :=
  ({} : Trace).used uses

/-- Whatever is done with a trace, the free list of its pool holds each record that is not live
once and no others, the records allocated are as many as were ever in use at one time, a record
that is handed out is blank, and what is given back are the live records at or below the one that
is named. -/
theorem pool_exact (uses : List Use) :
    (after uses).pool.free.Nodup ∧
      (∀ id, id ∈ (after uses).pool.free ↔
        id < (after uses).pool.allocated ∧ (after uses).pool.get? id = none) ∧
      (after uses).pool.inUse = (after uses).pool.liveCount ∧
      IsGreatest (Set.range fun n => (after (uses.take n)).pool.inUse)
        (after uses).pool.allocated ∧
      (∀ node kind source setter,
        (after uses).pool.get? ((after uses).pool.create node kind source setter).1 = none ∧
          ((after uses).pool.create node kind source setter).2.get?
              ((after uses).pool.create node kind source setter).1 =
            some { node, kind, source, setter }) ∧
      ∀ id, ∃ gone : List CallId, gone.Nodup ∧
        (∀ x, x ∈ gone ↔ ((after uses).pool.get? x).isSome ∧ (after uses).pool.Below id x) ∧
        ((after uses).pool.recycleAll id).1.free = gone.reverse ++ (after uses).pool.free ∧
        (∀ x, ((after uses).pool.recycleAll id).1.get? x =
          if x ∈ gone then none else (after uses).pool.get? x) ∧
        ((after uses).pool.recycleAll id).2 = gone.length := by
  have sound : (after uses).pool.Sound := used_sound Pool.Sound.empty uses
  obtain ⟨hpeak, hbound⟩ := used_allocated {} Pool.Sound.empty uses
  refine ⟨sound.nodup, sound.mem_free_iff, sound.inUse_eq, ⟨?_, ?_⟩, ?_, fun id => ?_⟩
  · rcases hpeak with hnone | ⟨n, hn⟩
    · exact ⟨0, hnone.symm⟩
    · exact ⟨n, hn⟩
  · rintro _ ⟨n, rfl⟩
    exact (Nat.sub_le _ _).trans (hbound n)
  · intro node kind source setter
    have hmade := sound.create node kind source setter
    exact ⟨hmade.fresh, (hmade.get? _).trans (if_pos rfl)⟩
  · obtain ⟨gone, clears⟩ := sound.clears [id]
    refine ⟨gone, clears.nodup, fun x => ?_, clears.free, clears.get?, clears.count⟩
    rw [clears.mem_iff]
    simp

end Trace
end ObjectNavigation
