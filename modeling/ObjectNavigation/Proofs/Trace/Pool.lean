import ObjectNavigation.Trace.Pool
import Mathlib.Data.List.Perm.Subperm
import Mathlib.Data.List.Range
import Mathlib.Logic.Relation

/-!
The storage of records. A pool is sound if its free list holds exactly the records that are not
live, each once, and those are blank. Every operation keeps a pool sound, and what it does is said
by what a look-up finds afterwards.
-/

namespace ObjectNavigation
namespace Pool

/-! ### Looking up -/

theorem get?_eq_some_iff {pool : Pool} {id : CallId} {call : Call} :
    pool.get? id = some call ↔ pool.records[id]? = some call ∧ call.live = true :=
  Option.filter_eq_some_iff

theorem lt_size_of_get? {pool : Pool} {id : CallId} {call : Call}
    (h : pool.get? id = some call) : id < pool.records.size :=
  (Array.getElem?_eq_some_iff.1 (get?_eq_some_iff.1 h).1).1

theorem get?_modify (pool : Pool) (id x : CallId) {change : Call → Call}
    (keeps : ∀ call, (change call).live = call.live) :
    (pool.modify id change).get? x =
      if x = id then (pool.get? x).map change else pool.get? x := by
  simp only [get?, modify, Array.getElem?_modify]
  by_cases hx : id = x
  · subst hx
    rw [if_pos rfl, if_pos rfl]
    cases pool.records[id]? with
    | none => rfl
    | some call => cases hlive : call.live <;> simp [Option.filter, hlive, keeps]
  · rw [if_neg hx, if_neg (Ne.symm hx)]

theorem get?_release (pool : Pool) (id x : CallId) :
    (pool.release id).get? x = if x = id then none else pool.get? x := by
  simp only [get?, release, Array.getElem?_modify]
  by_cases hx : id = x
  · subst hx
    cases pool.records[id]? <;> simp [Option.filter, Call.released]
  · rw [if_neg hx, if_neg (Ne.symm hx)]

/-! ### Soundness -/

/-- Nothing of an earlier use is left in a record. -/
structure Blank (call : Call) : Prop where
  result : call.result = none
  failure : call.failure = none
  parent : call.parent = none
  children : call.children = []

structure Sound (pool : Pool) : Prop where
  nodup : pool.free.Nodup
  mem_free_iff : ∀ id, id ∈ pool.free ↔ id < pool.records.size ∧ pool.get? id = none
  blank : ∀ (id : CallId) (call : Call), pool.records[id]? = some call → call.live = false →
    Blank call

namespace Sound
variable {pool : Pool}

theorem empty : Sound {} where
  nodup := .nil
  mem_free_iff id := by simp
  blank id call h := by simp at h

theorem modify (sound : pool.Sound) (id : CallId) {change : Call → Call}
    (keeps : ∀ call, (change call).live = call.live) : (pool.modify id change).Sound := by
  refine ⟨sound.nodup, fun x => ?_, fun x call hx hlive => ?_⟩
  · rw [get?_modify pool id x keeps]
    have hsize : (pool.modify id change).records.size = pool.records.size := by
      simp [Pool.modify]
    rw [hsize, show (pool.modify id change).free = pool.free from rfl, sound.mem_free_iff]
    split <;> simp
  · simp only [Pool.modify, Array.getElem?_modify] at hx
    split at hx
    next =>
      obtain ⟨old, hold, rfl⟩ := Option.map_eq_some_iff.1 hx
      by_cases hl : old.live = true
      · rw [if_pos hl, keeps, hl] at hlive
        cases hlive
      · rw [if_neg hl]
        exact sound.blank x old hold (by simpa using hl)
    next => exact sound.blank x call hx hlive

theorem release (sound : pool.Sound) {id : CallId} {call : Call} (hid : pool.get? id = some call) :
    (pool.release id).Sound := by
  have hsize : (pool.release id).records.size = pool.records.size := by simp [Pool.release]
  refine ⟨?_, fun x => ?_, fun x found hx hlive => ?_⟩
  · refine List.nodup_cons.2 ⟨fun hmem => ?_, sound.nodup⟩
    rw [((sound.mem_free_iff id).1 hmem).2] at hid
    cases hid
  · rw [get?_release, hsize, show (pool.release id).free = id :: pool.free from rfl,
      List.mem_cons, sound.mem_free_iff]
    by_cases hx : x = id
    · subst hx
      simp [lt_size_of_get? hid]
    · simp [hx]
  · simp only [Pool.release, Array.getElem?_modify] at hx
    split at hx
    next =>
      obtain ⟨old, _, rfl⟩ := Option.map_eq_some_iff.1 hx
      exact ⟨rfl, rfl, rfl, rfl⟩
    next => exact sound.blank x found hx hlive

end Sound

structure Creates (pool : Pool) (node : NodeId) (kind : Kind) (source : Value) (setter : Bool)
    (id : CallId) (made : Pool) : Prop where
  sound : made.Sound
  fresh : pool.get? id = none
  get? : ∀ x, made.get? x =
    if x = id then some { node, kind, source, setter } else pool.get? x

theorem Creates.isSome_get?_iff {pool made : Pool} {node : NodeId} {kind : Kind} {source : Value}
    {setter : Bool} {id : CallId} (creates : Creates pool node kind source setter id made)
    (x : CallId) : (made.get? x).isSome ↔ x = id ∨ (pool.get? x).isSome := by
  rw [creates.get?]
  split
  next h => simp [h]
  next h => simp [h]

theorem Sound.create_free {pool : Pool} (sound : pool.Sound) {id : CallId} {free : List CallId}
    (hfree : pool.free = id :: free) (node : NodeId) (kind : Kind) (source : Value)
    (setter : Bool) :
    Creates pool node kind source setter id { records := pool.records.modify id fun call =>
      { call with node, kind, source, setter, live := true }, free } := by
  obtain ⟨hid, hnone⟩ := (sound.mem_free_iff id).1 (hfree ▸ List.mem_cons_self)
  obtain ⟨old, hold⟩ : ∃ old, pool.records[id]? = some old := ⟨_, Array.getElem?_eq_getElem hid⟩
  -- A free record is dead, and a dead one is blank.
  have hdead : old.live = false := by
    by_contra hlive
    rw [get?_eq_some_iff.2 ⟨hold, by simpa using hlive⟩] at hnone
    cases hnone
  obtain ⟨hresult, hfailure, hparent, hchildren⟩ := sound.blank id old hold hdead
  have hnodup := List.nodup_cons.1 (hfree ▸ sound.nodup)
  have hget : ∀ x, Pool.get? { records := pool.records.modify id fun call =>
      { call with node, kind, source, setter, live := true }, free } x =
      if x = id then some { node, kind, source, setter } else pool.get? x := by
    intro x
    simp only [Pool.get?, Array.getElem?_modify]
    by_cases hx : id = x
    · subst hx
      simp [hold, hresult, hfailure, hparent, hchildren]
    · rw [if_neg hx, if_neg (Ne.symm hx)]
  refine ⟨⟨hnodup.2, fun x => ?_, fun x call hx hlive => ?_⟩, hnone, hget⟩
  · have hmem : x ∈ pool.free ↔ x = id ∨ x ∈ free := by rw [hfree, List.mem_cons]
    rw [hget, Array.size_modify]
    rw [sound.mem_free_iff] at hmem
    by_cases hx : x = id
    · subst hx
      simpa using hnodup.1
    · rw [if_neg hx, hmem]
      simp [hx]
  · simp only [Array.getElem?_modify] at hx
    split at hx
    next =>
      obtain ⟨_, _, rfl⟩ := Option.map_eq_some_iff.1 hx
      cases hlive
    next => exact sound.blank x call hx hlive

theorem Sound.create_new {pool : Pool} (sound : pool.Sound) (hfree : pool.free = [])
    (node : NodeId) (kind : Kind) (source : Value) (setter : Bool) :
    Creates pool node kind source setter pool.records.size
      { records := pool.records.push { node, kind, source, setter }, free := [] } := by
  have hget : ∀ x, Pool.get?
      { records := pool.records.push { node, kind, source, setter }, free := [] } x =
      if x = pool.records.size then some { node, kind, source, setter } else pool.get? x := by
    intro x
    simp only [Pool.get?, Array.getElem?_push]
    split <;> rfl
  refine ⟨⟨.nil, fun x => ?_, fun x call hx hlive => ?_⟩, by simp [Pool.get?], hget⟩
  · rw [hget, Array.size_push]
    refine iff_of_false List.not_mem_nil fun ⟨hx, hnone⟩ => ?_
    split at hnone
    next => cases hnone
    next hne =>
      have hlt := Nat.lt_of_le_of_ne (Nat.le_of_lt_succ hx) hne
      have hmem := (sound.mem_free_iff x).2 ⟨hlt, hnone⟩
      rw [hfree] at hmem
      cases hmem
  · simp only [Array.getElem?_push] at hx
    split at hx
    next => cases hx; cases hlive
    next => exact sound.blank x call hx hlive

/-- A record that is handed out is blank, whatever it was used for before. -/
theorem Sound.create {pool : Pool} (sound : pool.Sound) (node : NodeId) (kind : Kind)
    (source : Value) (setter : Bool) :
    Creates pool node kind source setter (pool.create node kind source setter).1
      (pool.create node kind source setter).2 := by
  unfold Pool.create
  split
  next id free hfree => exact sound.create_free hfree node kind source setter
  next hfree =>
    rw [hfree]
    exact sound.create_new hfree node kind source setter

end Pool
end ObjectNavigation
