import ObjectNavigation.Node.Probe
import ObjectNavigation.Proofs.Engine.Session

/-!
Where a failed call is said to have failed. The entry `failed` of a trace is the record of the last
recorded activation that failed with no recorded failure inside it (`Activation.culprit`), whatever
became of that failure. `Activation.Names` is what such an entry is meant to say: the record of the
activation that raised the error, the error having passed through all records around it.

Main statements: `Session.names_iff` says when the entry says so, `not_names_after_recovery` that a
failure recovered from earlier can stand there instead.
-/

namespace ObjectNavigation
namespace Activation

mutual

/-- The last recorded activation to fail with no recorded failure inside it. -/
def culprit : Activation → Option Activation
  | activation@⟨_, _, _, _, record, _, _, _, _, inner⟩ =>
    (culpritOf inner).or (if record.isSome && activation.failed then some activation else none)

def culpritOf : List Activation → Option Activation
  | [] => none
  | activation :: rest => (culpritOf rest).or activation.culprit

end

theorem culprit_eq (activation : Activation) :
    activation.culprit = (culpritOf activation.inner).or
      (if activation.record.isSome && activation.failed then some activation else none) := by
  cases activation
  rfl

def error? (activation : Activation) : Option EvalError :=
  match activation.outcome with
  | .ok _ => none
  | .error error => some error

theorem error?_eq_some_iff {activation : Activation} {error : EvalError} :
    activation.error? = some error ↔ activation.outcome = .error error := by
  unfold error?
  cases activation.outcome <;> simp

def failure? (activation : Activation) : Option String :=
  activation.error?.map EvalError.message

/-- The activation failed with the error, and no activation inside it did. -/
def Raises (activation : Activation) (error : EvalError) : Prop :=
  activation.outcome = .error error ∧ ∀ other ∈ allOf activation.inner, other.outcome ≠ .error error

/-- The records of activations, those of the outer ones first. -/
def records (log : List Activation) : List CallId :=
  log.filterMap record

theorem mem_records {log : List Activation} {activation : Activation} (hmem : activation ∈ log)
    {id : CallId} (hid : activation.record = some id) : id ∈ records log :=
  List.mem_filterMap.2 ⟨activation, hmem, hid⟩

theorem eq_of_record_eq_of_nodup {log : List Activation} (nodup : (records log).Nodup)
    {left right : Activation} (hleft : left ∈ log) (hright : right ∈ log) {id : CallId}
    (hleft' : left.record = some id) (hright' : right.record = some id) : left = right := by
  induction log with
  | nil => cases hleft
  | cons first rest ih =>
    have hrest : (records rest).Nodup :=
      nodup.sublist ((List.sublist_cons_self first rest).filterMap record)
    -- the record of the first activation is not used again
    have hfirst : first.record = some id → id ∉ records rest := by
      intro h
      rw [records, List.filterMap_cons_some h] at nodup
      exact (List.nodup_cons.1 nodup).1
    rcases List.mem_cons.1 hleft with rfl | inLeft
    · rcases List.mem_cons.1 hright with rfl | inRight
      · rfl
      · exact (hfirst hleft' (mem_records inRight hright')).elim
    · rcases List.mem_cons.1 hright with rfl | inRight
      · exact (hfirst hright' (mem_records inLeft hleft')).elim
      · exact ih hrest inLeft inRight

theorem mem_all_self (activation : Activation) : activation ∈ activation.all := by
  rw [all_eq]
  exact List.mem_cons_self

mutual

theorem mem_all_trans {outer middle inner : Activation} (h : middle ∈ outer.all)
    (h' : inner ∈ middle.all) : inner ∈ outer.all := by
  match outer with
  | ⟨_, _, _, _, _, _, _, _, _, nested⟩ =>
    rcases List.mem_cons.1 h with rfl | h
    · exact h'
    · exact List.mem_cons_of_mem _ (mem_allOf_trans h h')

theorem mem_allOf_trans {log : List Activation} {middle inner : Activation} (h : middle ∈ allOf log)
    (h' : inner ∈ middle.all) : inner ∈ allOf log := by
  match log with
  | first :: rest =>
    rcases List.mem_append.1 h with h | h
    · exact List.mem_append_left _ (mem_all_trans h h')
    · exact List.mem_append_right _ (mem_allOf_trans h h')

end

mutual

theorem mem_all_of_culprit {activation found : Activation} (h : activation.culprit = some found) :
    found ∈ activation.all ∧ found.record.isSome := by
  match activation with
  | ⟨_, _, _, _, record, _, _, _, _, inner⟩ =>
    rw [culprit_eq, Option.or_eq_some_iff] at h
    rcases h with h | ⟨_, h⟩
    · exact (mem_allOf_of_culpritOf h).imp_left (List.mem_cons_of_mem _)
    · split at h
      next hfailed =>
        cases h
        exact ⟨mem_all_self _, (Bool.and_eq_true_iff.1 hfailed).1⟩
      next => cases h

theorem mem_allOf_of_culpritOf {log : List Activation} {found : Activation}
    (h : culpritOf log = some found) : found ∈ allOf log ∧ found.record.isSome := by
  match log with
  | first :: rest =>
    rw [culpritOf, Option.or_eq_some_iff] at h
    rcases h with h | ⟨_, h⟩
    · exact (mem_allOf_of_culpritOf h).imp_left (List.mem_append_right _)
    · exact (mem_all_of_culprit h).imp_left (List.mem_append_left _)

end

/-! ### Activations and their branches -/

mutual

theorem records_all (activation : Activation) (parent : Option CallId) :
    records activation.all = Branch.idsAll (activation.branches parent) := by
  match activation with
  | ⟨node, kind, object, setter, record, before, after, outcome, keep, inner⟩ =>
    rw [all_eq, records, List.filterMap_cons]
    cases record with
    | none =>
      rw [branches_of_none rfl]
      exact records_allOf inner parent
    | some id =>
      rw [branches_of_some rfl, Branch.idsAll_singleton, Frame.ids_close]
      exact congrArg (id :: ·) (records_allOf inner (some id))

theorem records_allOf (log : List Activation) (parent : Option CallId) :
    records (allOf log) = Branch.idsAll (branchesOf parent log) := by
  match log with
  | [] => rfl
  | first :: rest =>
    rw [allOf, records, List.filterMap_append, branchesOf, Branch.idsAll_append]
    exact congrArg₂ (· ++ ·) (records_all first parent) (records_allOf rest parent)

end

theorem ids_close_frame (activation : Activation) {id : CallId} (h : activation.record = some id)
    (parent : Option CallId) :
    ((activation.frame id).close parent activation.outcome).ids = records activation.all := by
  rw [records_all activation parent, branches_of_some h, Branch.idsAll_singleton]

theorem failure_close (activation : Activation) (id : CallId) (parent : Option CallId) :
    ((activation.frame id).close parent activation.outcome).call.failure = activation.failure? := by
  simp only [Frame.close, failure?, error?]
  rcases activation.outcome with error | result | value <;> rfl

theorem blamed_close (activation : Activation) (id : CallId) (parent : Option CallId) :
    ((activation.frame id).close parent activation.outcome).blamed =
      (Branch.blamedAll (branchesOf (some id) activation.inner)).or
        (if activation.failed then some id else none) := by
  have hfailed : ((activation.frame id).close parent activation.outcome).failed =
      activation.failed := Frame.failed_close _ _ _
  rw [← hfailed]
  rfl

theorem bind_record_or {found other : Option Activation}
    (h : ∀ activation ∈ found, activation.record.isSome) :
    (found.or other).bind record = (found.bind record).or (other.bind record) := by
  cases found with
  | none => rfl
  | some activation =>
    obtain ⟨id, hid⟩ := Option.isSome_iff_exists.1 (h activation rfl)
    simp [hid]

mutual

theorem blamedAll_branches (activation : Activation) (parent : Option CallId) :
    Branch.blamedAll (activation.branches parent) = activation.culprit.bind record := by
  match activation with
  | ⟨node, kind, object, setter, record, before, after, outcome, keep, inner⟩ =>
    have hsome : ∀ found ∈ culpritOf inner, found.record.isSome := fun found h =>
      (mem_allOf_of_culpritOf h).2
    rw [culprit_eq, bind_record_or hsome]
    cases record with
    | none =>
      rw [branches_of_none rfl, blamedAll_branchesOf inner parent]
      simp
    | some id =>
      rw [branches_of_some rfl, Branch.blamedAll, Branch.blamedAll, Option.none_or, blamed_close,
        blamedAll_branchesOf inner (some id)]
      congr 1
      simp only [Option.isSome_some, Bool.true_and]
      split <;> rfl

theorem blamedAll_branchesOf (log : List Activation) (parent : Option CallId) :
    Branch.blamedAll (branchesOf parent log) = (culpritOf log).bind record := by
  match log with
  | [] => rfl
  | first :: rest =>
    have hsome : ∀ found ∈ culpritOf rest, found.record.isSome := fun found h =>
      (mem_allOf_of_culpritOf h).2
    rw [branchesOf, Branch.blamedAll_append, culpritOf, bind_record_or hsome,
      blamedAll_branches first parent, blamedAll_branchesOf rest parent]

end

mutual

/-- A pool that holds the branches of an activation holds the branch of each recorded one in it. -/
theorem holds_of_mem_all {pool : Pool} (activation : Activation) {parent : Option CallId}
    (holds : pool.HoldsAll parent (activation.branches parent)) {other : Activation}
    (hmem : other ∈ activation.all) {id : CallId} (hid : other.record = some id) :
    ∃ above, pool.Holds above ((other.frame id).close above other.outcome) := by
  match activation with
  | ⟨node, kind, object, setter, record, before, after, outcome, keep, inner⟩ =>
    cases record with
    | none =>
      rw [branches_of_none rfl] at holds
      rcases List.mem_cons.1 hmem with rfl | hmem
      · cases hid
      · exact holds_of_mem_allOf inner holds hmem hid
    | some own =>
      rw [branches_of_some rfl] at holds
      rcases List.mem_cons.1 hmem with rfl | hmem
      · cases hid
        exact ⟨parent, holds.1⟩
      · obtain ⟨_, _, _, hinner⟩ := holds.1
        exact holds_of_mem_allOf inner hinner hmem hid

theorem holds_of_mem_allOf {pool : Pool} (log : List Activation) {parent : Option CallId}
    (holds : pool.HoldsAll parent (branchesOf parent log)) {other : Activation}
    (hmem : other ∈ allOf log) {id : CallId} (hid : other.record = some id) :
    ∃ above, pool.Holds above ((other.frame id).close above other.outcome) := by
  match log with
  | first :: rest =>
    rw [branchesOf, Pool.holdsAll_append] at holds
    rcases List.mem_append.1 hmem with hmem | hmem
    · exact holds_of_mem_all first holds.1 hmem hid
    · exact holds_of_mem_allOf rest holds.2 hmem hid

end

/-! ### What the entry of a failed call says -/

/-- The entry `failed` after a call that failed with this error is the record of the activation
that raised it, and all records from the one of the call down to it failed with its text. -/
def Names (activation : Activation) (error : EvalError) : Prop :=
  ∃ top id, activation.after.last = some top ∧ activation.after.failed = some id ∧
    activation.after.pool.Below top id ∧
    (∀ x, activation.after.pool.Below top x → activation.after.pool.Below x id →
      ∃ call, activation.after.pool.get? x = some call ∧ call.failure = some error.message) ∧
    ∃ raiser ∈ activation.all, raiser.record = some id ∧ raiser.Raises error

theorem not_names_of_failure_ne {activation : Activation} {error : EvalError} {id : CallId}
    (hfailed : activation.after.failed = some id)
    (hne : (activation.after.pool.get? id).bind Call.failure ≠ some error.message) :
    ¬ activation.Names error := by
  rintro ⟨top, found, _, hfound, hbelow, hpath, _⟩
  obtain rfl := Option.some.inj (hfailed.symm.trans hfound)
  obtain ⟨call, hcall, hfailure⟩ := hpath id hbelow .refl
  exact hne (by rw [hcall, Option.bind_some, hfailure])

/-- A failed outermost activation, as it is when it ends. -/
structure Retained (activation : Activation) (top : CallId) : Prop where
  record : activation.record = some top
  shape : Shape activation.after [] (some activation.branch)

namespace Retained
variable {activation : Activation} {top : CallId}

theorem branch_eq (retained : activation.Retained top) :
    activation.branches none = [activation.branch] := by
  rw [branches_of_some retained.record, branch, retained.record]
  rfl

theorem holds (retained : activation.Retained top) :
    activation.after.pool.HoldsAll none (activation.branches none) := by
  rw [retained.branch_eq]
  exact retained.shape.holdsKept

theorem nodup_records (retained : activation.Retained top) : (records activation.all).Nodup := by
  rw [records_all activation none, retained.branch_eq]
  exact retained.shape.nodup

theorem last_eq (retained : activation.Retained top) : activation.after.last = some top := by
  rw [retained.shape.last, Option.map_some, branch, retained.record]
  rfl

theorem get? (retained : activation.Retained top) {other : Activation}
    (hmem : other ∈ activation.all) {id : CallId} (hid : other.record = some id) :
    ∃ call, activation.after.pool.get? id = some call ∧ call.failure = other.failure? := by
  obtain ⟨above, hholds⟩ := holds_of_mem_all activation retained.holds hmem hid
  exact ⟨_, hholds.get?, other.failure_close id above⟩

theorem below_iff (retained : activation.Retained top) {other : Activation}
    (hmem : other ∈ activation.all) {id : CallId} (hid : other.record = some id) (x : CallId) :
    activation.after.pool.Below id x ↔ x ∈ records other.all := by
  obtain ⟨above, hholds⟩ := holds_of_mem_all activation retained.holds hmem hid
  rw [← other.ids_close_frame hid above]
  exact hholds.mem_ids_iff.symm

theorem eq_of_record_eq (retained : activation.Retained top) {left right : Activation}
    (hleft : left ∈ activation.all) (hright : right ∈ activation.all) {id : CallId}
    (hleft' : left.record = some id) (hright' : right.record = some id) : left = right :=
  eq_of_record_eq_of_nodup retained.nodup_records hleft hright hleft' hright'

theorem failed_eq (retained : activation.Retained top) (hfailed : activation.failed = true) :
    ∃ found id, activation.culprit = some found ∧ found.record = some id ∧
      activation.after.failed = some id := by
  have hculprit : activation.after.failed = activation.culprit.bind Activation.record := by
    rw [retained.shape.failed, Option.bind_some, Branch.culprit, failed_branch, if_pos hfailed,
      ← blamedAll_branches activation none, retained.branch_eq]
    simp [Branch.blamedAll]
  cases h : activation.culprit with
  | none =>
    rw [culprit_eq, retained.record, hfailed, Option.or_eq_none_iff] at h
    simp at h
  | some found =>
    obtain ⟨id, hid⟩ := Option.isSome_iff_exists.1 (mem_all_of_culprit h).2
    exact ⟨found, id, rfl, hid, by rw [hculprit, h, Option.bind_some, hid]⟩

theorem below_of_mem (retained : activation.Retained top) {other : Activation}
    (hmem : other ∈ activation.all) {id : CallId} (hid : other.record = some id) :
    activation.after.pool.Below top id :=
  (retained.below_iff activation.mem_all_self retained.record id).2 (mem_records hmem hid)

theorem names_culprit_iff (retained : activation.Retained top) {found : Activation}
    (hfound : activation.culprit = some found) {id : CallId} (hid : found.record = some id)
    (hfailed : activation.after.failed = some id) (error : EvalError) :
    activation.Names error ↔ found.Raises error ∧ ∀ around ∈ activation.all,
      around.record.isSome → found ∈ around.all → around.failure? = some error.message := by
  have hmem := (mem_all_of_culprit hfound).1
  have hlast := retained.last_eq
  refine ⟨fun hnames => ?_, fun ⟨hraises, haround⟩ => ?_⟩
  · obtain ⟨_, _, hlast', hfailed', _, hpath, raiser, hraiser, hrecord, hraises⟩ := hnames
    obtain rfl := Option.some.inj (hlast.symm.trans hlast')
    obtain rfl := Option.some.inj (hfailed.symm.trans hfailed')
    have heq := retained.eq_of_record_eq hraiser hmem hrecord hid
    refine ⟨heq ▸ hraises, fun around haround hsome hinside => ?_⟩
    obtain ⟨x, hx⟩ := Option.isSome_iff_exists.1 hsome
    have hbelow := (retained.below_iff haround hx id).2 (mem_records hinside hid)
    obtain ⟨call, hcall, hfailure⟩ := hpath x (retained.below_of_mem haround hx) hbelow
    obtain ⟨call', hcall', hfailure'⟩ := retained.get? haround hx
    rw [← hfailure', ← hfailure, Option.some.inj (hcall'.symm.trans hcall)]
  · refine ⟨top, id, hlast, hfailed, retained.below_of_mem hmem hid, fun x htop hx => ?_,
      found, hmem, hid, hraises⟩
    have hrecords := (retained.below_iff activation.mem_all_self retained.record x).1 htop
    obtain ⟨around, haround', hrecord⟩ := List.mem_filterMap.1 hrecords
    obtain ⟨inside, hinside, hinside'⟩ :=
      List.mem_filterMap.1 ((retained.below_iff haround' hrecord id).1 hx)
    have heq := retained.eq_of_record_eq (mem_all_trans haround' hinside) hmem hinside' hid
    obtain ⟨call, hcall, hfailure⟩ := retained.get? haround' hrecord
    refine ⟨call, hcall, hfailure.trans ?_⟩
    exact haround around haround' (by rw [hrecord]; rfl) (heq ▸ hinside)

end Retained

end Activation

/-- When a recorded outermost call that failed ends, the entry `failed` is the record of its
culprit, below the retained one. It names the activation that raised the error exactly when the
culprit raised it and all recorded activations around the culprit failed with its text. -/
theorem Session.names_iff {moments : List Moment} {context : Context}
    (session : Session moments context) {activation : Activation}
    (hmem : activation ∈ Moment.outermost moments) {error : EvalError}
    (hfailed : activation.outcome = .error error) :
    ∃ found top id, activation.culprit = some found ∧ found.record = some id ∧
      activation.after.last = some top ∧ activation.after.failed = some id ∧
      activation.after.pool.Below top id ∧ (activation.after.pool.get? id).isSome ∧
      (activation.Names error ↔ found.Raises error ∧ ∀ around ∈ activation.all,
        around.record.isSome → found ∈ around.all → around.failure? = some error.message) := by
  have hfailed' : activation.failed = true := by rw [Activation.failed, hfailed]
  have hretains : activation.retains = true := by rw [Activation.retains, hfailed']; rfl
  obtain ⟨hrecord, hshape⟩ := session.atRest.outermost activation hmem hretains
  obtain ⟨top, htop⟩ := Option.isSome_iff_exists.1 hrecord
  have retained : activation.Retained top := ⟨htop, hshape⟩
  obtain ⟨found, id, hfound, hid, hentry⟩ := retained.failed_eq hfailed'
  have hmem' := (Activation.mem_all_of_culprit hfound).1
  obtain ⟨call, hcall, _⟩ := retained.get? hmem' hid
  exact ⟨found, top, id, hfound, hid, retained.last_eq, hentry, retained.below_of_mem hmem' hid,
    by rw [hcall]; rfl, retained.names_culprit_iff hfound hid hentry error⟩

def Workspace.readLog (workspace : Workspace) : List Activation :=
  ((workspace.watch { settings := { trace := true } } { tree := 0 }).get .null).log
    (workspace.world { settings := { trace := true } })

theorem names_property : ∃ moments context, Session moments context ∧
    ∃ activation ∈ Moment.outermost moments,
      activation.outcome = .error (.noSuchProperty "x" "null") ∧
      activation.Names (.noSuchProperty "x" "null") := by
  have session := Session.get_of_isOk (.fresh { trace := true } none) propertyWorkspace
    { tree := 0 } .null (by decide +kernel)
  obtain ⟨activation, hmem, herror, hrecord, hinner⟩ :
      ∃ activation ∈ Moment.outermost [.call propertyWorkspace.readLog],
        activation.error? = some (.noSuchProperty "x" "null") ∧ activation.record.isSome = true ∧
          activation.inner.isEmpty = true := by decide +kernel
  have houtcome := Activation.error?_eq_some_iff.1 herror
  have hinner' : activation.inner = [] := List.isEmpty_iff.1 hinner
  obtain ⟨found, top, id, hculprit, _, _, _, _, _, hnames⟩ := session.names_iff hmem houtcome
  have hfound : activation = found := by
    simpa [Activation.culprit_eq, hinner', Activation.culpritOf, hrecord, Activation.failed,
      houtcome] using hculprit
  refine ⟨_, _, session, activation, hmem, houtcome, hnames.2 ⟨⟨hfound ▸ houtcome, ?_⟩, ?_⟩⟩
  · simp [← hfound, hinner', Activation.allOf]
  · simp [Activation.all_eq, hinner', Activation.allOf, Activation.failure?, herror]

/-- A quotient by zero, the dividend of which recovers from the failure of a property. -/
def recoveringWorkspace : Workspace where
  trees := #[.node (.arithmetic .divide)
    [some (.node
      (.host (Probe.body { label := "p", kind := .custom "K", reading := .recover (.int 1) }))
      [some (.node (.property "x") [])]),
     some (.node (.const (.int 0)) [])]]

/-- After a failure that was recovered from, the division by zero is said to have failed in the
property. -/
theorem not_names_after_recovery : ∃ moments context, Session moments context ∧
    ∃ activation ∈ Moment.outermost moments, activation.outcome = .error .divisionByZero ∧
      activation.after.failed = some 2 ∧ ¬ activation.Names .divisionByZero := by
  have session := Session.get_of_isOk (.fresh { trace := true } none) recoveringWorkspace
    { tree := 0 } .null (by decide +kernel)
  obtain ⟨activation, hmem, herror, hfailed, hne⟩ :
      ∃ activation ∈ Moment.outermost [.call recoveringWorkspace.readLog],
        activation.error? = some .divisionByZero ∧ activation.after.failed = some 2 ∧
          (activation.after.pool.get? 2).bind Call.failure ≠
            some (EvalError.message .divisionByZero) := by decide +kernel
  exact ⟨_, _, session, activation, hmem, Activation.error?_eq_some_iff.1 herror, hfailed,
    Activation.not_names_of_failure_ne hfailed hne⟩

end ObjectNavigation
