import ObjectNavigation.Proofs.Trace.Pool

/-!
Giving records back. The records that go are the live ones at or below those that are given back,
whatever the child lists look like: they may share records, run in a circle or name records that
are in use for something else by now. A record that is reached once more is no longer live, so
that each goes once.
-/

namespace ObjectNavigation
namespace Pool

/-! ### Reaching -/

/-- `child` is in the child list of the live record `id`. -/
def Child (pool : Pool) (id child : CallId) : Prop :=
  ∃ call, pool.get? id = some call ∧ child ∈ call.children

/-- Child lists lead from `top` to `id`, or the two are one. -/
def Below (pool : Pool) : CallId → CallId → Prop :=
  Relation.ReflTransGen pool.Child

variable {pool : Pool} {id x y : CallId} {call : Call}

theorem Child.mem (h : pool.get? id = some call) (child : pool.Child id x) : x ∈ call.children := by
  obtain ⟨found, hfound, hmem⟩ := child
  rw [h] at hfound
  cases hfound
  exact hmem

theorem Below.eq_of_get? (h : pool.get? id = none) (below : pool.Below id x) : x = id := by
  induction below with
  | refl => rfl
  | tail _ child ih =>
    obtain ⟨call, hcall, _⟩ := child
    rw [ih, h] at hcall
    cases hcall

theorem child_release_iff : (pool.release id).Child x y ↔ x ≠ id ∧ pool.Child x y := by
  simp only [Child, get?_release]
  by_cases hx : x = id
  · simp [hx]
  · simp [hx]

/-- What can be reached from a record and others can, the record being gone, be reached from its
children and the others. -/
theorem below_or_below_release (h : pool.get? id = some call) {others : List CallId}
    (hy : y ∈ id :: others) (below : pool.Below y x) :
    x = id ∨ ∃ z ∈ call.children.reverse ++ others, (pool.release id).Below z x := by
  induction below with
  | refl =>
    rcases List.mem_cons.1 hy with rfl | hy
    · exact .inl rfl
    · exact .inr ⟨y, List.mem_append_right _ hy, .refl⟩
  | @tail b c _ child ih =>
    by_cases hb : b = id
    · subst hb
      have hc := List.mem_reverse.2 (child.mem h)
      exact .inr ⟨c, List.mem_append_left _ hc, .refl⟩
    · obtain ⟨z, hz, below⟩ := ih.resolve_left hb
      exact .inr ⟨z, hz, below.tail (child_release_iff.2 ⟨hb, child⟩)⟩

theorem below_release_iff (h : pool.get? id = some call) {others : List CallId} (hx : x ≠ id) :
    (∃ z ∈ call.children.reverse ++ others, (pool.release id).Below z x) ↔
      ∃ y ∈ id :: others, pool.Below y x := by
  constructor
  · rintro ⟨z, hz, below⟩
    have hbelow : pool.Below z x :=
      Relation.ReflTransGen.mono (fun _ _ child => (child_release_iff.1 child).2) _ _ below
    rcases List.mem_append.1 hz with hz | hz
    · have hchild : pool.Child id z := ⟨call, h, List.mem_reverse.1 hz⟩
      exact ⟨id, List.mem_cons_self, .head hchild hbelow⟩
    · exact ⟨z, List.mem_cons_of_mem _ hz, hbelow⟩
  · rintro ⟨y, hy, below⟩
    exact (below_or_below_release h hy below).resolve_left hx

/-! ### Giving back -/

theorem recycle_cons (h : pool.get? id = some call) (rest : List CallId) :
    pool.recycle (id :: rest) =
      (((pool.release id).recycle (call.children.reverse ++ rest)).1,
        ((pool.release id).recycle (call.children.reverse ++ rest)).2 + 1) := by
  rw [recycle]
  split
  next hnone => rw [h] at hnone; cases hnone
  next found hfound =>
    rw [h] at hfound
    cases hfound
    rfl

theorem recycle_cons_dead (h : pool.get? id = none) (rest : List CallId) :
    pool.recycle (id :: rest) = pool.recycle rest := by
  rw [recycle]
  split
  next => rfl
  next found hfound => rw [h] at hfound; cases hfound

/-- What giving back the live records at or below `tops` does: they go in the order of `gone`. -/
structure Clears (pool : Pool) (tops gone : List CallId) (left : Pool) (count : Nat) : Prop where
  nodup : gone.Nodup
  mem_iff : ∀ x, x ∈ gone ↔ (pool.get? x).isSome ∧ ∃ top ∈ tops, pool.Below top x
  sound : left.Sound
  get? : ∀ x, left.get? x = if x ∈ gone then none else pool.get? x
  free : left.free = gone.reverse ++ pool.free
  allocated : left.allocated = pool.allocated
  count : count = gone.length

/-- The record that is given back first goes, and then what can be reached without it. -/
theorem Clears.cons (h : pool.get? id = some call) {rest gone : List CallId} {left : Pool}
    {count : Nat}
    (clears : (pool.release id).Clears (call.children.reverse ++ rest) gone left count) :
    pool.Clears (id :: rest) (id :: gone) left (count + 1) := by
  have hnot : id ∉ gone := by
    rw [clears.mem_iff, get?_release, if_pos rfl]
    simp
  refine ⟨List.nodup_cons.2 ⟨hnot, clears.nodup⟩, fun x => ?_, clears.sound, fun x => ?_, ?_, ?_,
    by rw [clears.count, List.length_cons]⟩
  · by_cases hx : x = id
    · subst hx
      exact iff_of_true List.mem_cons_self ⟨by simp [h], x, List.mem_cons_self, .refl⟩
    · rw [List.mem_cons, clears.mem_iff, get?_release, if_neg hx, below_release_iff h hx]
      simp [hx]
  · rw [clears.get?, get?_release]
    by_cases hx : x = id
    · simp [hx]
    · simp [hx]
  · rw [clears.free, release, List.reverse_cons, List.append_assoc, List.singleton_append]
  · rw [clears.allocated, Pool.allocated, Pool.allocated, release, Array.size_modify]

theorem Sound.clears (sound : pool.Sound) (tops : List CallId) :
    ∃ gone, pool.Clears tops gone (pool.recycle tops).1 (pool.recycle tops).2 := by
  -- along the recursion of `recycle`: it ends since each step leaves a record less in use
  induction pool, tops using Pool.recycle.induct with
  | case1 pool =>
    rw [recycle]
    exact ⟨[], .nil, by simp, sound, by simp, by simp, rfl, rfl⟩
  | case2 pool top rest hnone ih =>
    obtain ⟨gone, clears⟩ := ih sound
    rw [recycle_cons_dead hnone]
    refine ⟨gone, clears.nodup, fun x => ?_, clears.sound, clears.get?, clears.free,
      clears.allocated, clears.count⟩
    rw [clears.mem_iff, List.exists_mem_cons_iff]
    refine and_congr_right fun hlive => ⟨.inr, fun h => h.resolve_left fun below => ?_⟩
    rw [below.eq_of_get? hnone, hnone] at hlive
    cases hlive
  | case3 pool top rest call hcall _ _ _ ih =>
    obtain ⟨gone, clears⟩ := ih (sound.release hcall)
    rw [recycle_cons hcall]
    exact ⟨top :: gone, clears.cons hcall⟩

end Pool
end ObjectNavigation
