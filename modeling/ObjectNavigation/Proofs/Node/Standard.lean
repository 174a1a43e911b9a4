import ObjectNavigation.Proofs.Node.Child

/-!
What holds of all bodies of a tree (`Tree.all`), and the bodies of the library, whatever values
their constants hold (`Body.isStandard`). Among these the kind decides which ones flatten.
-/

namespace ObjectNavigation

namespace Body

def isStandard : Body → Bool
  | host _ => false
  | _ => true

theorem ne_host_of_isStandard {body : Body} (h : body.isStandard = true) (host : HostBody) :
    body ≠ .host host := by
  rintro rfl
  cases h

theorem flattens_eq_of_kind_eq {body other : Body} (h : body.isStandard = true)
    (hother : other.isStandard = true) (hkind : body.kind = other.kind) :
    body.flattens = other.flattens := by
  have hflattens : ∀ {held : Body}, held.isStandard = true →
      held.flattens = [Kind.chain, .add, .multiply].contains held.kind := by
    intro held hheld
    cases held with
    | arithmetic op => cases op <;> rfl
    | host host => cases hheld
    | _ => rfl
  rw [hflattens h, hflattens hother, hkind]

/-- Asked a question, a body of the library knows the answer or passes one on to its slots. -/
theorem ask_cases {body : Body} (h : body.isStandard = true) (seat : Seat) (question : Question) :
    (∃ answer, body.ask seat question = pure answer) ∨
      ∃ passed, body.ask seat question = allAgree passed (List.range seat.slots) := by
  have hown : ∃ answer, body.ownConstant seat = pure answer := by
    cases body with
    | host host => cases h
    | _ => exact ⟨_, rfl⟩
  have hslots : (∃ answer, body.childrenConstant seat = pure answer) ∨
      ∃ passed, body.childrenConstant seat = allAgree passed (List.range seat.slots) := by
    unfold childrenConstant slotsConstant
    split
    next => exact .inl hown
    next => exact .inr ⟨_, rfl⟩
  cases question with
  | constant =>
    cases body with
    | host host => cases h
    | arithmetic _ | negate | list => exact hslots
    | _ => exact .inl hown
  | childrenConstant => exact hslots
  | simpleProperty =>
    cases body with
    | host host => cases h
    | _ => exact .inl ⟨_, rfl⟩
  | simpleChain =>
    cases body with
    | host host => cases h
    | chain =>
      simp only [ask, simpleChain]
      split
      next => exact .inl ⟨_, rfl⟩
      next => exact .inr ⟨_, rfl⟩
    | _ => exact .inl ⟨_, rfl⟩

theorem walk_succ (count : Nat) (source : Value) :
    walk (count + 1) source = walk count source >>= fun value => Script.getValue count value := by
  simp only [walk, List.range_succ, List.foldlM_append, List.foldlM_cons, List.foldlM_nil,
    bind_pure]

end Body

namespace Tree

mutual

def all (p : Body → Bool) : Tree → Bool
  | node body slots => p body && slotsAll p slots

def slotsAll (p : Body → Bool) : List (Option Tree) → Bool
  | [] => true
  | none :: rest => slotsAll p rest
  | some child :: rest => child.all p && slotsAll p rest

end

variable {p q : Body → Bool}

theorem all_child {next : NodeId} {slots : List (Option Tree)} {index : Nat}
    {entry : NodeId × Tree} (hall : slotsAll p slots = true)
    (h : entry ∈ child? next slots index) : entry.2.all p = true := by
  refine of_child? (·.all p = true) (slotsAll p · = true) (fun _ => id) ?_ hall h
  intro child rest hslots
  rwa [slotsAll, Bool.and_eq_true] at hslots

theorem slotsAll_append (p : Body → Bool) (slots others : List (Option Tree)) :
    slotsAll p (slots ++ others) = (slotsAll p slots && slotsAll p others) := by
  induction slots with
  | nil => rfl
  | cons slot rest ih =>
    cases slot with
    | none => exact ih
    | some child => rw [List.cons_append, slotsAll, slotsAll, ih, Bool.and_assoc]

theorem Sub.all {tree sub : Tree} {id : NodeId} (hsub : tree.Sub id sub)
    (hall : tree.all p = true) : sub.all p = true := by
  induction hsub with
  | root => exact hall
  | child _ h ih =>
    rw [Tree.all, Bool.and_eq_true] at ih
    exact all_child ih.2 h

mutual

theorem all_imp (himp : ∀ body, p body = true → q body = true) {tree : Tree}
    (h : tree.all p = true) : tree.all q = true := by
  match tree with
  | .node body slots =>
    rw [all, Bool.and_eq_true] at h ⊢
    exact ⟨himp body h.1, slotsAll_imp himp h.2⟩

theorem slotsAll_imp (himp : ∀ body, p body = true → q body = true) {slots : List (Option Tree)}
    (h : slotsAll p slots = true) : slotsAll q slots = true := by
  match slots with
  | [] => rfl
  | none :: rest =>
    have hrest : slotsAll q rest = true := slotsAll_imp himp h
    exact hrest
  | some child :: rest =>
    rw [slotsAll, Bool.and_eq_true] at h ⊢
    exact ⟨all_imp himp h.1, slotsAll_imp himp h.2⟩

end

end Tree
end ObjectNavigation
