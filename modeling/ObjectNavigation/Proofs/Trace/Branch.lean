import ObjectNavigation.Proofs.Trace.Recycling

/-!
Branches of records. A `Branch` is a record together with all that was recorded below it, as the
pool held it at some time. Giving back the root of a branch that a pool holds gives back exactly
its records, and the records of the branch are those that child lists lead to from its root.
-/

namespace ObjectNavigation

/-- A record, its contents, and the branches below it. -/
structure Branch where
  id : CallId
  call : Call
  inner : List Branch

namespace Branch

mutual

def ids : Branch → List CallId
  | ⟨id, _, inner⟩ => id :: idsAll inner

def idsAll : List Branch → List CallId
  | [] => []
  | branch :: rest => branch.ids ++ idsAll rest

end

theorem id_mem_ids (branch : Branch) : branch.id ∈ branch.ids := by
  cases branch with
  | mk id call inner => exact List.mem_cons_self

theorem idsAll_append (left right : List Branch) :
    idsAll (left ++ right) = idsAll left ++ idsAll right := by
  induction left with
  | nil => rfl
  | cons branch rest ih => simp [idsAll, ih]

theorem idsAll_eq_flatMap (branches : List Branch) : idsAll branches = branches.flatMap ids := by
  induction branches with
  | nil => rfl
  | cons branch rest ih => rw [idsAll, ih, List.flatMap_cons]

theorem idsAll_perm {branches others : List Branch} (h : branches.Perm others) :
    (idsAll branches).Perm (idsAll others) := by
  rw [idsAll_eq_flatMap, idsAll_eq_flatMap]
  exact h.flatMap_right _

theorem mem_idsAll_iff {branches : List Branch} {x : CallId} :
    x ∈ idsAll branches ↔ ∃ branch ∈ branches, x ∈ branch.ids := by
  induction branches with
  | nil => simp [idsAll]
  | cons branch rest ih => simp [idsAll, ih]

@[simp] theorem idsAll_singleton (branch : Branch) : idsAll [branch] = branch.ids := by
  simp [idsAll]

end Branch

namespace Pool
open Branch (ids idsAll mem_idsAll_iff)

mutual

/-- The pool holds the records of a branch, linked in both directions, its root below `parent`. -/
def Holds (pool : Pool) (parent : Option CallId) : Branch → Prop
  | ⟨id, call, inner⟩ => pool.get? id = some call ∧ call.parent = parent ∧
      call.children = inner.map Branch.id ∧ HoldsAll pool (some id) inner

def HoldsAll (pool : Pool) (parent : Option CallId) : List Branch → Prop
  | [] => True
  | branch :: rest => Holds pool parent branch ∧ HoldsAll pool parent rest

end

theorem holdsAll_append {pool : Pool} {parent : Option CallId} {left right : List Branch} :
    pool.HoldsAll parent (left ++ right) ↔
      pool.HoldsAll parent left ∧ pool.HoldsAll parent right := by
  induction left with
  | nil => simp [HoldsAll]
  | cons branch rest ih => simp [HoldsAll, ih, and_assoc]

theorem holdsAll_iff {pool : Pool} {parent : Option CallId} {branches : List Branch} :
    pool.HoldsAll parent branches ↔ ∀ branch ∈ branches, pool.Holds parent branch := by
  induction branches with
  | nil => simp [HoldsAll]
  | cons branch rest ih => rw [HoldsAll, ih, List.forall_mem_cons]

theorem HoldsAll.perm {pool : Pool} {parent : Option CallId} {branches others : List Branch}
    (holds : pool.HoldsAll parent branches) (h : branches.Perm others) :
    pool.HoldsAll parent others :=
  holdsAll_iff.2 fun branch hbranch => holdsAll_iff.1 holds branch (h.mem_iff.2 hbranch)

theorem Holds.get? {pool : Pool} {parent : Option CallId} {branch : Branch}
    (holds : pool.Holds parent branch) : pool.get? branch.id = some branch.call := by
  cases branch with
  | mk id call inner => exact holds.1

mutual

theorem Holds.congr {pool other : Pool} {parent : Option CallId} {branch : Branch}
    (holds : pool.Holds parent branch) (same : ∀ x ∈ branch.ids, other.get? x = pool.get? x) :
    other.Holds parent branch := by
  match branch with
  | ⟨id, call, inner⟩ =>
    obtain ⟨hid, hparent, hchildren, hinner⟩ := holds
    refine ⟨(same id List.mem_cons_self).trans hid, hparent, hchildren, ?_⟩
    exact HoldsAll.congr hinner fun x hx => same x (List.mem_cons_of_mem _ hx)

theorem HoldsAll.congr {pool other : Pool} {parent : Option CallId} {branches : List Branch}
    (holds : pool.HoldsAll parent branches)
    (same : ∀ x ∈ idsAll branches, other.get? x = pool.get? x) :
    other.HoldsAll parent branches := by
  match branches with
  | [] => exact trivial
  | branch :: rest =>
    exact ⟨holds.1.congr fun x hx => same x (List.mem_append_left _ hx),
      HoldsAll.congr holds.2 fun x hx => same x (List.mem_append_right _ hx)⟩

end

mutual

theorem Holds.get?_eq {pool other : Pool} {parent above : Option CallId} {branch : Branch}
    (holds : pool.Holds parent branch) (holds' : other.Holds above branch) {x : CallId}
    (hx : x ∈ branch.ids) : pool.get? x = other.get? x := by
  match branch with
  | ⟨id, call, inner⟩ =>
    rcases List.mem_cons.1 hx with rfl | hx
    · exact holds.1.trans holds'.1.symm
    · exact holds.2.2.2.get?_eq holds'.2.2.2 hx

theorem HoldsAll.get?_eq {pool other : Pool} {parent above : Option CallId}
    {branches : List Branch} (holds : pool.HoldsAll parent branches)
    (holds' : other.HoldsAll above branches) {x : CallId} (hx : x ∈ idsAll branches) :
    pool.get? x = other.get? x := by
  match branches with
  | branch :: rest =>
    rcases List.mem_append.1 hx with hx | hx
    · exact holds.1.get?_eq holds'.1 hx
    · exact HoldsAll.get?_eq holds.2 holds'.2 hx

end

mutual

theorem Holds.live {pool : Pool} {parent : Option CallId} {branch : Branch}
    (holds : pool.Holds parent branch) {x : CallId} (hx : x ∈ branch.ids) :
    (pool.get? x).isSome := by
  match branch with
  | ⟨id, call, inner⟩ =>
    obtain ⟨hid, _, _, hinner⟩ := holds
    rcases List.mem_cons.1 hx with rfl | hx
    · rw [hid]
      rfl
    · exact hinner.live hx

theorem HoldsAll.live {pool : Pool} {parent : Option CallId} {branches : List Branch}
    (holds : pool.HoldsAll parent branches) {x : CallId} (hx : x ∈ idsAll branches) :
    (pool.get? x).isSome := by
  match branches with
  | branch :: rest =>
    rcases List.mem_append.1 hx with hx | hx
    · exact holds.1.live hx
    · exact HoldsAll.live holds.2 hx

end

/-! ### Reaching -/

mutual

theorem Holds.below {pool : Pool} {parent : Option CallId} {branch : Branch}
    (holds : pool.Holds parent branch) {x : CallId} (hx : x ∈ branch.ids) :
    pool.Below branch.id x := by
  match branch with
  | ⟨id, call, inner⟩ =>
    obtain ⟨hid, _, hchildren, hinner⟩ := holds
    rcases List.mem_cons.1 hx with rfl | hx
    · exact .refl
    · obtain ⟨child, hchild, hbelow⟩ := hinner.below hx
      exact .head ⟨call, hid, hchildren ▸ List.mem_map_of_mem hchild⟩ hbelow

theorem HoldsAll.below {pool : Pool} {parent : Option CallId} {branches : List Branch}
    (holds : pool.HoldsAll parent branches) {x : CallId} (hx : x ∈ idsAll branches) :
    ∃ branch ∈ branches, pool.Below branch.id x := by
  match branches with
  | branch :: rest =>
    rcases List.mem_append.1 hx with hx | hx
    · exact ⟨branch, List.mem_cons_self, holds.1.below hx⟩
    · obtain ⟨found, hmem, hbelow⟩ := HoldsAll.below holds.2 hx
      exact ⟨found, List.mem_cons_of_mem _ hmem, hbelow⟩

end

mutual

theorem Holds.child {pool : Pool} {parent : Option CallId} {branch : Branch}
    (holds : pool.Holds parent branch) {x y : CallId} (hx : x ∈ branch.ids)
    (hxy : pool.Child x y) : y ∈ branch.ids := by
  match branch with
  | ⟨id, call, inner⟩ =>
    obtain ⟨hid, _, hchildren, hinner⟩ := holds
    rcases List.mem_cons.1 hx with rfl | hx
    · obtain ⟨found, hfound, hmem⟩ := hxy
      rw [hid] at hfound
      cases hfound
      obtain ⟨child, hchild, rfl⟩ := List.mem_map.1 (hchildren ▸ hmem)
      exact List.mem_cons_of_mem _ (mem_idsAll_iff.2 ⟨child, hchild, child.id_mem_ids⟩)
    · exact List.mem_cons_of_mem _ (hinner.child hx hxy)

theorem HoldsAll.child {pool : Pool} {parent : Option CallId} {branches : List Branch}
    (holds : pool.HoldsAll parent branches) {x y : CallId} (hx : x ∈ idsAll branches)
    (hxy : pool.Child x y) : y ∈ idsAll branches := by
  match branches with
  | branch :: rest =>
    rcases List.mem_append.1 hx with hx | hx
    · exact List.mem_append_left _ (holds.1.child hx hxy)
    · exact List.mem_append_right _ (HoldsAll.child holds.2 hx hxy)

end

/-- The records of a branch are those at or below its root. -/
theorem Holds.mem_ids_iff {pool : Pool} {parent : Option CallId} {branch : Branch}
    (holds : pool.Holds parent branch) {x : CallId} :
    x ∈ branch.ids ↔ pool.Below branch.id x := by
  refine ⟨holds.below, fun hbelow => ?_⟩
  induction hbelow with
  | refl => exact branch.id_mem_ids
  | tail _ hstep ih => exact holds.child ih hstep

/-- Giving back the root of a branch gives back its records and no others. -/
theorem recycleAll_branch {pool : Pool} {parent : Option CallId} {branch : Branch}
    (sound : pool.Sound) (holds : pool.Holds parent branch) (nodup : branch.ids.Nodup) :
    (pool.recycleAll branch.id).1.Sound ∧
      (∀ x, (pool.recycleAll branch.id).1.get? x =
        if x ∈ branch.ids then none else pool.get? x) ∧
      (pool.recycleAll branch.id).2 = branch.ids.length := by
  obtain ⟨gone, clears⟩ := sound.clears [branch.id]
  have hmem : ∀ x, x ∈ gone ↔ x ∈ branch.ids := by
    intro x
    rw [clears.mem_iff, holds.mem_ids_iff]
    simpa using fun below => holds.live (holds.mem_ids_iff.2 below)
  have hperm : gone.Perm branch.ids := (List.perm_ext_iff_of_nodup clears.nodup nodup).2 hmem
  refine ⟨clears.sound, fun x => ?_, clears.count.trans hperm.length_eq⟩
  simp only [← hmem]
  exact clears.get? x

end Pool
end ObjectNavigation
