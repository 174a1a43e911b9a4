import ObjectNavigation.Proofs.Engine.Assignment
import ObjectNavigation.Proofs.Engine.Caching
import ObjectNavigation.Proofs.Engine.Parallel
import ObjectNavigation.Proofs.Node.Spliced

/-!
Chains in chains. A chain evaluates its links one after another, and so do the links of a chain that
is one of them; an assignment goes through the last link of the last one. So a tree and the tree
with the links of such chains in place of them come to the same, call by call
(`Tree.spliced_agrees`). What is kept for the constants below is kept for both, under the names that
their nodes have in each.
-/

namespace ObjectNavigation

/-! ### Names -/

namespace Constants
variable {related : Constants → Constants → Prop} {home home' : TreeId} {id : NodeId}

/-- What is known of the one node is known of the other, and becomes known together. -/
structure Paired (related : Constants → Constants → Prop) (home : TreeId) (id : NodeId)
    (home' : TreeId) (id' : NodeId) : Prop where
  cell : ∀ {constants constants'}, related constants constants' →
    constants.cell home id = constants'.cell home' id'
  check : ∀ {constants constants'}, related constants constants' →
    related (constants.check home id) (constants'.check home' id')
  keep : ∀ {constants constants'} (value : Value), related constants constants' →
    related (constants.keep home id value) (constants'.keep home' id' value)

/-- Nothing is kept for the node, and that it was asked makes no difference. -/
structure Spare (related : Constants → Constants → Prop) (home : TreeId) (id : NodeId) : Prop where
  value : ∀ {constants constants'}, related constants constants' →
    (constants.cell home id).value = none
  check : ∀ {constants constants'}, related constants constants' →
    related (constants.check home id) constants'

def Renamed (related : Constants → Constants → Prop) (home : TreeId) (id : NodeId)
    (home' : TreeId) : Option NodeId → Prop
  | some id' => Paired related home id home' id'
  | none => Spare related home id

/-- The nodes from `id` on have these names. -/
def Tied (related : Constants → Constants → Prop) (home home' : TreeId) (id : NodeId)
    (names : List (Option NodeId)) : Prop :=
  ∀ place name, names[place]? = some name → Renamed related home (id + place) home' name

namespace Tied
variable {name : Option NodeId} {names others : List (Option NodeId)}

theorem head (tied : Tied related home home' id (name :: names)) :
    Renamed related home id home' name :=
  tied 0 name rfl

theorem tail (tied : Tied related home home' id (name :: names)) :
    Tied related home home' (id + 1) names := by
  intro place other h
  rw [Nat.add_assoc, Nat.add_comm 1]
  exact tied (place + 1) other h

theorem left (tied : Tied related home home' id (names ++ others)) :
    Tied related home home' id names := by
  intro place other h
  obtain ⟨hlt, _⟩ := List.getElem?_eq_some_iff.1 h
  exact tied place other (by rwa [List.getElem?_append_left hlt])

theorem right (tied : Tied related home home' id (names ++ others)) :
    Tied related home home' (id + names.length) others := by
  intro place other h
  rw [Nat.add_assoc]
  apply tied
  rwa [List.getElem?_append_right (Nat.le_add_right _ _), Nat.add_sub_cancel_left]

end Tied

/-- What is kept for a tree is kept for the spliced one, and nothing for a chain that is gone. -/
structure Spliced (tree : Tree) (home home' : TreeId) (constants constants' : Constants) :
    Prop where
  cell : ∀ id id', (tree.newNames false 0)[id]? = some (some id') →
    constants.cell home id = constants'.cell home' id'
  gone : ∀ id, (tree.newNames false 0)[id]? = some none → (constants.cell home id).value = none

theorem Spliced.put {tree : Tree} {constants constants' : Constants}
    (h : Spliced tree home home' constants constants') {id' : NodeId}
    (hname : (tree.newNames false 0)[id]? = some (some id')) (cell : Cell) :
    Spliced tree home home' (constants.put home id cell) (constants'.put home' id' cell) where
  cell other other' hother := by
    rw [cell_put, cell_put]
    by_cases heq : other = id
    · subst heq
      rw [hname] at hother
      cases hother
      simp
    · have hne : other' ≠ id' := by
        rintro rfl
        exact heq (Tree.newNames_unique hother hname)
      rw [if_neg fun h => heq h.2, if_neg fun h => hne h.2]
      exact h.cell other other' hother
  gone other hother := by
    rw [cell_put]
    split
    next heq =>
      rw [heq.2, hname] at hother
      cases hother
    next => exact h.gone other hother

theorem paired_spliced {tree : Tree} {id' : NodeId}
    (hname : (tree.newNames false 0)[id]? = some (some id')) :
    Paired (Spliced tree home home') home id home' id' where
  cell h := h.cell id id' hname
  check h := by
    rw [Constants.check, Constants.check, h.cell id id' hname]
    exact h.put hname _
  keep value h := by
    rw [Constants.keep, Constants.keep, h.cell id id' hname]
    split
    next => exact h
    next => exact h.put hname _

theorem spare_spliced {tree : Tree} (hname : (tree.newNames false 0)[id]? = some none) :
    Spare (Spliced tree home home') home id where
  value h := h.gone id hname
  check {constants constants'} h := by
    have hvalue : ∀ other, ((constants.check home id).cell home other).value =
        (constants.cell home other).value := by
      intro other
      rw [Constants.check, cell_put]
      split
      next heq => rw [heq.2]
      next => rfl
    refine ⟨fun other other' hother => ?_, fun other hother => ?_⟩
    · have hne : other ≠ id := by
        rintro rfl
        rw [hname] at hother
        cases hother
      rw [cell_check_of_ne _ fun heq => hne heq.2]
      exact h.cell other other' hother
    · rw [hvalue]
      exact h.gone other hother

theorem tied_spliced (tree : Tree) (home home' : TreeId) :
    Tied (Spliced tree home home') home home' 0 (tree.newNames false 0) := by
  intro place name h
  rw [Nat.zero_add]
  cases name with
  | some id' => exact paired_spliced h
  | none => exact spare_spliced h

end Constants

/-! ### Gets by way of constants -/

namespace Eval.Parallel
variable {related : Constants → Constants → Prop} {home home' : TreeId} {id id' : NodeId}
  {ask ask' : Eval Bool} {act act' : Eval Value}

theorem kept (paired : Constants.Paired related home id home' id')
    (h : act.Parallel related related act') :
    (Engine.kept home id act).Parallel related related (Engine.kept home' id' act') := by
  intro world world' hsurface hconstants
  rw [Engine.kept, Engine.kept, paired.cell hconstants]
  cases (world'.constants.cell home' id').value with
  | some value => exact ⟨rfl, hsurface, hconstants⟩
  | none => exact h world world' hsurface hconstants

theorem keeping (paired : Constants.Paired related home id home' id')
    (h : act.Parallel related related act') :
    (Engine.keeping home id act).Parallel related related (Engine.keeping home' id' act') := by
  refine h.andThen (fun outcome => ?_) fun _ _ hkept => hkept
  cases outcome with
  | error error => exact finish _
  | ok value =>
    intro world world' hsurface hconstants
    have hkeep := paired.keep value hconstants
    refine ⟨?_, hsurface, hkeep⟩
    dsimp only
    rw [paired.cell hkeep]

/-- Nodes of which the same is known, and which give one answer. -/
theorem cached {constant : Bool} (paired : Constants.Paired related home id home' id')
    (answers : ∀ world, ask world = (.ok (.ok constant), world))
    (answers' : ∀ world, ask' world = (.ok (.ok constant), world))
    (h : act.Parallel related related act') :
    (Engine.cached home id ask act).Parallel related related
      (Engine.cached home' id' ask' act') := by
  intro world world' hsurface hconstants
  rw [Engine.cached, Engine.cached, paired.cell hconstants]
  split
  next => exact h.kept paired world world' hsurface hconstants
  next =>
    rw [Eval.andThen, Eval.andThen, answers, answers']
    have hcheck := paired.check hconstants
    cases constant with
    | false =>
      exact h.kept paired { world with constants := _ } { world' with constants := _ } hsurface
        hcheck
    | true =>
      exact h.keeping paired { world with constants := _ } { world' with constants := _ } hsurface
        hcheck

/-- A node that is gone on the other side, and is not constant. -/
theorem cached_left (spare : Constants.Spare related home id)
    (answers : ∀ world, ask world = (.ok (.ok false), world))
    (h : act.Parallel related related act') :
    (Engine.cached home id ask act).Parallel related related act' := by
  intro world world' hsurface hconstants
  obtain ⟨begun, hbegun, hkept, hact⟩ :
      ∃ begun : World, begun.surface = world.surface ∧
        (begun.constants = world.constants ∨ begun.constants = world.constants.check home id) ∧
        Engine.cached home id ask act world = act begun :=
    Engine.cached_eq_act_of_none answers (spare.value hconstants)
  have hrelated : related begun.constants world'.constants := by
    rcases hkept with hsame | hchecked
    · rw [hsame]
      exact hconstants
    · rw [hchecked]
      exact spare.check hconstants
  rw [hact]
  exact h begun world' (hbegun.trans hsurface) hrelated

end Eval.Parallel

/-! ### Links -/

namespace Tree
variable {env : Env} {home : TreeId}

def links (next : NodeId) : List (Option Tree) → List (NodeId × Tree)
  | [] => []
  | none :: rest => links next rest
  | some child :: rest => (next, child) :: links (next + child.size) rest

/-- An assignment through the last link, to the value at the end of the others. -/
def through (env : Env) (home : TreeId) (links : List (NodeId × Tree)) (target value : Value) :
    Eval Unit :=
  match links.getLast? with
  | none => .finish (.error (.missingChild .chain 0))
  | some last =>
    (follow env home links.dropLast target).andThen fun
      | .ok holder => (last.2.handle env home last.1).set holder value
      | .error error => .finish (.error error)

theorem links_append (next : NodeId) (slots others : List (Option Tree)) :
    links next (slots ++ others) = links next slots ++ links (next + sizeSlots slots) others := by
  induction slots generalizing next with
  | nil => rfl
  | cons slot rest ih =>
    cases slot with
    | none => exact ih next
    | some child =>
      rw [List.cons_append, links, links, sizeSlots, ih, List.cons_append, Nat.add_assoc]

theorem follow_singleton (link : NodeId × Tree) (source : Value) :
    follow env home [link] source = (link.2.handle env home link.1).get source := by
  rw [follow]
  refine Eq.trans ?_ (Eval.andThen_finish _)
  congr 1
  funext outcome
  cases outcome <;> rfl

theorem through_singleton (link : NodeId × Tree) (target value : Value) :
    through env home [link] target value = (link.2.handle env home link.1).set target value := rfl

theorem through_append (links : List (NodeId × Tree)) {way : List (NodeId × Tree)} (h : way ≠ [])
    (target value : Value) :
    through env home (links ++ way) target value = (follow env home links target).andThen fun
      | .ok holder => through env home way holder value
      | .error error => .finish (.error error) := by
  have hlast := List.getLast?_eq_some_getLast h
  simp only [through, List.getLast?_append_of_ne_nil _ h, hlast,
    List.dropLast_append_of_ne_nil h, follow_append_eq, Eval.andThen_andThen]
  congr 1
  funext outcome
  cases outcome <;> rfl

theorem links_ne_nil (next : NodeId) {slots : List (Option Tree)} (hne : slots ≠ [])
    (hall : slots.all Option.isSome = true) : links next slots ≠ [] := by
  match slots with
  | [] => exact absurd rfl hne
  | none :: rest => cases hall
  | some child :: rest => exact List.cons_ne_nil _ _

section Chain
variable {next : NodeId} {slots : List (Option Tree)} (hall : slots.all Option.isSome = true)
  (gateway : Option Registry)
include hall

theorem run_walk_links (source : Value) {count : Nat} (hcount : count ≤ slots.length) :
    (Body.walk count source).run (Engine.reach .chain (child env home next slots)) gateway =
      follow env home (links next (slots.take count)) source := by
  induction count with
  | zero => rfl
  | succ count ih =>
    obtain ⟨link, hlink⟩ : ∃ link, slots[count] = some link :=
      Option.isSome_iff_exists.1 (List.all_eq_true.1 hall _ (List.getElem_mem hcount))
    have hslot : slots[count]? = some (some link) := by rw [List.getElem?_eq_getElem hcount, hlink]
    rw [Body.walk_succ, Script.bind_eq_andThen, Script.run_andThen, ih (Nat.le_of_succ_le hcount),
      List.take_add_one, hslot, Option.toList_some, links_append, follow_append_eq]
    congr 1
    funext outcome
    cases outcome with
    | error error => rfl
    | ok value =>
      rw [Script.onOk, Script.run_getValue, Engine.reach, child_eq, child?_eq, hslot]
      exact (follow_singleton _ value).symm

theorem run_read_links (source : Value) :
    (Body.chain.read (seat (.node .chain slots)) source).run
      (Engine.reach .chain (child env home next slots)) gateway =
        follow env home (links next slots) source := by
  refine (run_walk_links hall gateway source (Nat.le_refl _)).trans ?_
  rw [List.take_length]

theorem run_assign_links (hne : slots ≠ []) (target value : Value) :
    (Body.chain.assign (seat (.node .chain slots)) target value).run
      (Engine.reach .chain (child env home next slots)) gateway =
        through env home (links next slots) target value := by
  obtain rfl | ⟨front, last, rfl⟩ := List.eq_nil_or_concat slots
  · exact absurd rfl hne
  · rw [List.concat_eq_append] at hall ⊢
    obtain ⟨link, rfl⟩ : ∃ link, last = some link :=
      Option.isSome_iff_exists.1 (List.all_eq_true.1 hall _ (by simp))
    have hlength : (seat (.node .chain (front ++ [some link]))).slots = front.length + 1 := by
      simp [seat]
    have hfront : front.length ≤ (front ++ [some link]).length := by simp
    rw [Body.assign, hlength, if_neg (Nat.succ_ne_zero _), Nat.add_sub_cancel,
      Script.bind_eq_andThen, Script.run_andThen, run_walk_links hall gateway target hfront,
      List.take_left' rfl, links_append, links, links, through]
    simp only [List.getLast?_concat, List.dropLast_concat]
    congr 1
    funext outcome
    cases outcome with
    | error error => rfl
    | ok holder =>
      rw [Script.onOk, Script.run_setValue, Engine.reach, child_eq, child?_eq,
        List.getElem?_concat_length, List.take_left' rfl]
      rfl

end Chain

/-! ### Side by side -/

/-- What is placed in the spliced tree does what the tree does. -/
structure Unfolds (related : Constants → Constants → Prop) (env : Env) (home home' : TreeId)
    (id : NodeId) (tree : Tree) (inChain : Bool) (id' : NodeId) : Prop where
  get : ∀ source, ((tree.handle env home id).get source).Parallel related related
    (follow env home' (links id' (tree.spliced.placed inChain)) source)
  set : ∀ target value, ((tree.handle env home id).set target value).Parallel related related
    (through env home' (links id' (tree.spliced.placed inChain)) target value)

theorem Unfolds.parallel {related : Constants → Constants → Prop} {home' : TreeId} {id id' : NodeId}
    {tree : Tree} (h : Unfolds related env home home' id tree false id') :
    (tree.handle env home id).Parallel related (tree.spliced.handle env home' id') := by
  constructor
  · intro source
    have hget := h.get source
    rwa [placed_of_not (by simp), links, links, follow_singleton] at hget
  · intro target value
    have hset := h.set target value
    rwa [placed_of_not (by simp), links, links, through_singleton] at hset

section Slots
variable {related : Constants → Constants → Prop} {home' : TreeId} {next next' : NodeId}
  {slots : List (Option Tree)}
  (step : ∀ index, ∀ entry ∈ child? next slots index, ∀ inChain id',
    Constants.Tied related home home' entry.1 (entry.2.newNames inChain id') →
      Unfolds related env home home' entry.1 entry.2 inChain id')
include step

theorem reach_spliced
    (tied : Constants.Tied related home home' next (newSlotNames false next' slots)) (kind : Kind)
    (index : Nat) :
    (Engine.reach kind (child env home next slots) index).Parallel related
      (Engine.reach kind (child env home' next' (splicedSlots false slots)) index) := by
  -- By induction on the slots: the names go on behind those of the child that is skipped.
  have hentry : (child? next slots index = none ∧
        child? next' (splicedSlots false slots) index = none) ∨
      ∃ entry id', child? next slots index = some entry ∧
        child? next' (splicedSlots false slots) index = some (id', entry.2.spliced) ∧
        Constants.Tied related home home' entry.1 (entry.2.newNames false id') := by
    clear step
    induction slots generalizing next next' index with
    | nil => simp [splicedSlots, child?]
    | cons slot rest ih =>
      cases slot with
      | none =>
        cases index with
        | zero => exact .inl ⟨rfl, rfl⟩
        | succ index => exact ih tied index
      | some child =>
        rw [newSlotNames, placed_of_not (by simp), sizeSlots, sizeSlots, Nat.add_zero] at tied
        rw [splicedSlots, placed_of_not (by simp), List.singleton_append]
        have hrest := tied.right
        rw [length_newNames] at hrest
        cases index with
        | zero => exact .inr ⟨(next, child), next', rfl, rfl, tied.left⟩
        | succ index => exact ih hrest index
  rw [Engine.reach, Engine.reach, child_eq, child_eq]
  rcases hentry with ⟨hnone, hnone'⟩ | ⟨entry, id', hsome, hsome', htied⟩
  · rw [hnone, hnone']
    exact .absent _
  · rw [hsome, hsome']
    exact (step index entry hsome false id' htied).parallel

variable (filled : slotsFilled slots = true) (hall : slots.all Option.isSome = true)
  (tied : Constants.Tied related home home' next (newSlotNames true next' slots))
include filled hall tied

theorem follow_spliced (source : Value) :
    (follow env home (links next slots) source).Parallel related related
      (follow env home' (links next' (splicedSlots true slots)) source) := by
  induction slots generalizing next next' source with
  | nil => exact .finish _
  | cons slot rest ih =>
    cases slot with
    | none => cases hall
    | some child =>
      rw [slotsFilled, Bool.and_eq_true] at filled
      rw [newSlotNames] at tied
      have hrest := tied.right
      rw [length_newNames] at hrest
      rw [links, follow, splicedSlots, links_append, follow_append_eq]
      refine ((step 0 (next, child) rfl true next' tied.left).get source).andThen
        (fun outcome => ?_) fun _ _ h => h
      cases outcome with
      | error error => exact .finish _
      | ok value => exact ih (fun index => step (index + 1)) filled.2 hall hrest value

theorem through_spliced (hne : slots ≠ []) (target value : Value) :
    (through env home (links next slots) target value).Parallel related related
      (through env home' (links next' (splicedSlots true slots)) target value) := by
  induction slots generalizing next next' target with
  | nil => exact absurd rfl hne
  | cons slot rest ih =>
    cases slot with
    | none => cases hall
    | some child =>
      rw [slotsFilled, Bool.and_eq_true] at filled
      rw [newSlotNames] at tied
      have hrest := tied.right
      rw [length_newNames] at hrest
      have hchild := step 0 (next, child) rfl true next' tied.left
      rw [links, splicedSlots, links_append]
      -- All links but the last are followed, and the last one is assigned through.
      by_cases hlast : rest = []
      · subst hlast
        rw [splicedSlots, links, links, List.append_nil, through_singleton]
        exact hchild.set target value
      · obtain ⟨hmore, hfull⟩ := splicedSlots_filled filled.2 hall
        rw [← List.singleton_append, through_append _ (links_ne_nil _ hlast hall),
          through_append _ (links_ne_nil _ (hmore hlast) hfull), follow_singleton]
        refine (hchild.get target).andThen (fun outcome => ?_) fun _ _ h => h
        cases outcome with
        | error error => exact .finish _
        | ok holder =>
          exact ih (fun index => step (index + 1)) filled.2 hall hrest hlast holder

end Slots

section Plain
variable {related : Constants → Constants → Prop} {home' : TreeId} (plain : env.Plain home)
  (plain' : env.Plain home') {id id' : NodeId} {slots : List (Option Tree)}
  (standard : slotsAll Body.isStandard slots = true) (filled : slotsFilled slots = true)
  (step : ∀ index, ∀ entry ∈ child? (id + 1) slots index, ∀ inChain id',
    Constants.Tied related home home' entry.1 (entry.2.newNames inChain id') →
      Unfolds related env home home' entry.1 entry.2 inChain id')

section Chain
variable (hne : slots ≠ []) (hall : slots.all Option.isSome = true)
include plain standard filled step hne hall

/-- A chain in a chain does what its links do, one after another. -/
theorem unfolds_link
    (tied : Constants.Tied related home home' id ((Tree.node .chain slots).newNames true id')) :
    Unfolds related env home home' id (.node .chain slots) true id' := by
  have hplaced : (Tree.node .chain slots).spliced.placed true = splicedSlots true slots :=
    placed_of_chain rfl
  have hplain := Engine.substitute?_eq_none plain id .chain
  have answers := ask_constant_of_standard (show (Tree.node .chain slots).all Body.isStandard = true
    from standard) env home id
  rw [newNames, if_pos ⟨rfl, rfl⟩] at tied
  constructor
  · intro source
    rw [hplaced, handle_get hplain, Body.kind, run_read_links hall]
    have hlinks := follow_spliced step filled hall tied.tail source
    exact ((hlinks.cached_left tied.head answers).visiting_left _ _).traced_left _ _ _ _ _
  · intro target value
    rw [hplaced, handle_set hplain, Body.kind, run_assign_links hall _ hne]
    have hlinks := through_spliced step filled hall tied.tail hne target value
    exact (hlinks.visiting_left _ _).traced_left _ _ _ _ _

include plain'

/-- Any other chain is still there, with more links. -/
theorem unfolds_chain
    (tied : Constants.Tied related home home' id ((Tree.node .chain slots).newNames false id')) :
    Unfolds related env home home' id (.node .chain slots) false id' := by
  have hstandard : (Tree.node .chain slots).all Body.isStandard = true := standard
  have hspliced : (Tree.node .chain slots).spliced = .node .chain (splicedSlots true slots) := rfl
  have answers := ask_constant_of_standard hstandard env home id
  have answers' := ask_constant_of_standard (all_spliced hstandard) env home' id'
  rw [isConstant_spliced hstandard, hspliced] at answers'
  have hplain := Engine.substitute?_eq_none plain id .chain
  have hplain' := Engine.substitute?_eq_none plain' id' .chain
  obtain ⟨hmore, hfull⟩ := splicedSlots_filled filled hall
  rw [newNames, if_neg (by simp)] at tied
  constructor
  · intro source
    rw [placed_of_not (by simp), hspliced, links, links, follow_singleton, handle_get hplain,
      handle_get hplain', Body.kind, run_read_links hall, run_read_links hfull]
    have hlinks := follow_spliced step filled hall tied.tail source
    exact (hlinks.cached tied.head answers answers').entered _ _ _ _ _ _
  · intro target value
    rw [placed_of_not (by simp), hspliced, links, links, through_singleton, handle_set hplain,
      handle_set hplain', Body.kind, run_assign_links hall _ hne,
      run_assign_links hfull _ (hmore hne)]
    have hlinks := through_spliced step filled hall tied.tail hne target value
    exact hlinks.entered _ _ _ _ _ _

end Chain

variable {body : Body} (hbody : body.isStandard = true) (hkind : body.kind ≠ .chain)
include plain plain' standard filled step hbody hkind

/-- A node that is no chain is told the same, and reaches the same. -/
theorem unfolds_other {inChain : Bool}
    (tied : Constants.Tied related home home' id ((Tree.node body slots).newNames inChain id')) :
    Unfolds related env home home' id (.node body slots) inChain id' := by
  have hstandard : (Tree.node body slots).all Body.isStandard = true := by
    rw [all, hbody, standard, Bool.and_self]
  have hfilled : (Tree.node body slots).chainsFilled = true := by
    simp [chainsFilled, hkind, filled]
  have hspliced : (Tree.node body slots).spliced = .node body (splicedSlots false slots) := by
    rw [spliced, decide_eq_false hkind]
  -- Both nodes give the same answer, so what is kept for one of them fits the other.
  have answers := ask_constant_of_standard hstandard env home id
  have answers' := ask_constant_of_standard (all_spliced hstandard) env home' id'
  rw [isConstant_spliced hstandard, hspliced] at answers'
  have hplain := Engine.substitute?_eq_none plain id body
  have hplain' := Engine.substitute?_eq_none plain' id' body
  have hhost := Body.ne_host_of_isStandard hbody
  rw [newNames, if_neg fun h => hkind h.2, decide_eq_false hkind] at tied
  have hreach := reach_spliced step tied.tail body.kind
  have hplaced : (Tree.node body slots).spliced.placed inChain =
      [some (.node body (splicedSlots false slots))] := by
    have hnot : (Tree.node body slots).spliced.kind ≠ .chain := by rwa [kind_spliced]
    rw [placed_of_not fun h => hnot h.2, hspliced]
  constructor
  · intro source
    rw [hplaced, links, links, follow_singleton, handle_get hplain, handle_get hplain',
      seat_spliced hstandard hfilled hkind]
    have hrun := Eval.Parallel.run hreach env.gateway
      (Body.similar_read hhost (seat (.node body slots)) (rfl : source.erase = source.erase))
    exact (hrun.cached tied.head answers answers').entered _ _ _ _ _ _
  · intro target value
    rw [hplaced, links, links, through_singleton, handle_set hplain, handle_set hplain',
      seat_spliced hstandard hfilled hkind]
    have hrun := Eval.Parallel.run hreach env.gateway
      (Body.similar_assign hhost (seat_respects (.node body slots))
        (rfl : target.erase = target.erase) (rfl : value.erase = value.erase))
    exact hrun.entered _ _ _ _ _ _

end Plain

theorem unfolds {related : Constants → Constants → Prop} {home' : TreeId} (plain : env.Plain home)
    (plain' : env.Plain home') (id : NodeId) {tree : Tree}
    (standard : tree.all Body.isStandard = true) (filled : tree.chainsFilled = true)
    (inChain : Bool) (id' : NodeId)
    (tied : Constants.Tied related home home' id (tree.newNames inChain id')) :
    Unfolds related env home home' id tree inChain id' := by
  induction id, tree using child_induction generalizing inChain id' with
  | node id body slots ih =>
    rw [all, Bool.and_eq_true] at standard
    rw [chainsFilled, Bool.and_eq_true] at filled
    have step : ∀ index, ∀ entry ∈ child? (id + 1) slots index, ∀ inChain id',
        Constants.Tied related home home' entry.1 (entry.2.newNames inChain id') →
          Unfolds related env home home' entry.1 entry.2 inChain id' := by
      intro index entry hentry
      exact ih index entry hentry (all_child standard.2 hentry) (filled_child filled.2 hentry)
    by_cases hkind : body.kind = .chain
    · cases Body.eq_chain_of_kind standard.1 hkind
      obtain ⟨hne, hall⟩ : slots ≠ [] ∧ slots.all Option.isSome = true := by
        simpa [Body.kind] using filled.1
      cases inChain with
      | true => exact unfolds_link plain standard.2 filled.2 step hne hall tied
      | false => exact unfolds_chain plain plain' standard.2 filled.2 step hne hall tied
    · exact unfolds_other plain plain' standard.2 filled.2 step standard.1 hkind tied

/-! ### Histories -/

/-- The states of a tree and of the spliced one after the same calls, made in any states that are
the same outside the engine. Each may fail, and what is kept for other trees may change in
between. -/
inductive Together (tree : Tree) (home home' : TreeId) : World → World → Prop where
  | fresh {world world' : World} (surface : world.surface = world'.surface)
      (blank : ∀ id, world.constants.cell home id = {})
      (blank' : ∀ id, world'.constants.cell home' id = {}) : Together tree home home' world world'
  | get {world world' : World} (before : Together tree home home' world world') {env : Env}
      (plain : env.Plain home) (plain' : env.Plain home') (source : Value) :
      Together tree home home' ((tree.entrance env home).get source world).2
        ((tree.spliced.entrance env home').get source world').2
  | set {world world' : World} (before : Together tree home home' world world') {env : Env}
      (plain : env.Plain home) (plain' : env.Plain home') (target value : Value) :
      Together tree home home' ((tree.entrance env home).set target value world).2
        ((tree.spliced.entrance env home').set target value world').2
  | other {world world' after after' : World} (before : Together tree home home' world world')
      (surface : after.surface = after'.surface)
      (same : ∀ id, after.constants.cell home id = world.constants.cell home id)
      (same' : ∀ id, after'.constants.cell home' id = world'.constants.cell home' id) :
      Together tree home home' after after'

variable {tree : Tree} {home' : TreeId}

theorem parallel_spliced (plain : env.Plain home) (plain' : env.Plain home')
    (standard : tree.all Body.isStandard = true) (filled : tree.chainsFilled = true) :
    (tree.entrance env home).Parallel (Constants.Spliced tree home home')
      (tree.spliced.entrance env home') := by
  rw [entrance_eq_handle plain, entrance_eq_handle plain']
  have hunfolds : Unfolds (Constants.Spliced tree home home') env home home' 0 tree false 0 :=
    unfolds plain plain' 0 standard filled false 0 (Constants.tied_spliced tree home home')
  exact hunfolds.parallel

theorem Together.spliced {world world' : World} (together : tree.Together home home' world world')
    (standard : tree.all Body.isStandard = true) (filled : tree.chainsFilled = true) :
    world.surface = world'.surface ∧
      Constants.Spliced tree home home' world.constants world'.constants := by
  induction together with
  | fresh surface blank blank' =>
    refine ⟨surface, ⟨fun id id' _ => ?_, fun id _ => ?_⟩⟩
    · rw [blank, blank']
    · rw [blank]
  | get _ plain plain' source ih =>
    exact ((parallel_spliced plain plain' standard filled).get source _ _ ih.1 ih.2).2
  | set _ plain plain' target value ih =>
    exact ((parallel_spliced plain plain' standard filled).set target value _ _ ih.1 ih.2).2
  | other _ surface same same' ih =>
    refine ⟨surface, ⟨fun id id' hname => ?_, fun id hname => ?_⟩⟩
    · rw [same, same', ih.2.cell id id' hname]
    · rw [same, ih.2.gone id hname]

/-- With the links of chains in chains in place of these, a tree gives the same values, fails with
the same errors, and does the same to objects and to the host. -/
theorem spliced_agrees (plain : env.Plain home) (plain' : env.Plain home')
    (standard : tree.all Body.isStandard = true) (filled : tree.chainsFilled = true)
    {world world' : World} (together : tree.Together home home' world world') :
    (∀ source,
      ((tree.entrance env home).get source world).1 =
          ((tree.spliced.entrance env home').get source world').1 ∧
        ((tree.entrance env home).get source world).2.surface =
          ((tree.spliced.entrance env home').get source world').2.surface) ∧
    ∀ target value,
      ((tree.entrance env home).set target value world).1 =
          ((tree.spliced.entrance env home').set target value world').1 ∧
        ((tree.entrance env home).set target value world).2.surface =
          ((tree.spliced.entrance env home').set target value world').2.surface := by
  obtain ⟨hsurface, hconstants⟩ := together.spliced standard filled
  have hparallel := parallel_spliced plain plain' standard filled
  constructor
  · intro source
    obtain ⟨houtcome, hafter, _⟩ := hparallel.get source world world' hsurface hconstants
    exact ⟨houtcome, hafter⟩
  · intro target value
    obtain ⟨houtcome, hafter, _⟩ := hparallel.set target value world world' hsurface hconstants
    exact ⟨houtcome, hafter⟩

end Tree

def Tree.bracketedCall : Tree :=
  .node .chain
    [some (.node .chain [some (.node (.property "a") [])]), some (.node (.property "x") []),
      some (.node .chain [some (.node .chain [some Tree.listCall])])]

example : Tree.bracketedCall.spliced =
    .node .chain [some (.node (.property "a") []), some (.node (.property "x") []),
      some Tree.listCall] := rfl

/-- The list is the seventh node below the root, and the fourth of the spliced tree. It is kept
under both names after the first get, and the second calls the method once more. -/
theorem bracketedCall_agrees_after_get :
    let tree := Tree.bracketedCall
    let after := ((tree.entrance .echo 0).get (.object 0) .shared).2
    let after' := ((tree.spliced.entrance .echo 0).get (.object 0) .shared).2
    let result := (tree.entrance .echo 0).get (.object 0) after
    let result' := (tree.spliced.entrance .echo 0).get (.object 0) after'
    (after.constants.cell 0 7).value.isSome = true ∧
      (after'.constants.cell 0 4).value.isSome = true ∧
      result.1 = result'.1 ∧ result.1.toOption.isSome = true ∧
      result.2.surface = result'.2.surface ∧ result'.2.outside.journal.length = 2 := by
  have plain : Env.Plain .echo 0 := fun _ => rfl
  have before : Tree.bracketedCall.Together 0 0 .shared .shared :=
    .fresh rfl (fun _ => rfl) fun _ => rfl
  have hagrees := (Tree.spliced_agrees plain plain (show Tree.bracketedCall.all _ = true by decide)
    (by decide) (before.get plain plain (.object 0))).1 (.object 0)
  exact ⟨by decide +kernel, by decide +kernel, hagrees.1, by decide +kernel, hagrees.2,
    by decide +kernel⟩

end ObjectNavigation
