import ObjectNavigation.Proofs.Engine.Caching

/-!
Values are kept for constant nodes only (`Tree.Reaches.sparse`). This holds of all trees of the
library, whatever values their constants hold.
-/

namespace ObjectNavigation

namespace Constants

/-- Of the nodes of the tree, only constant ones have a value. -/
def Sparse (tree : Tree) (home : TreeId) : Constants → Prop :=
  Holds tree home fun sub _ => sub.isConstant = true

theorem Sparse.value_eq_none {constants : Constants} {tree sub : Tree} {home : TreeId} {id : NodeId}
    (h : constants.Sparse tree home) (hsub : tree.Sub id sub) (hnot : sub.isConstant = false) :
    (constants.cell home id).value = none :=
  Holds.value_eq_none h hsub fun _ hconstant => Bool.false_ne_true (hnot.symm.trans hconstant)

end Constants

namespace Tree
variable {tree sub : Tree} {home : TreeId} {env : Env} {id : NodeId}

theorem handle_sparse (plain : env.Plain home) (hsub : tree.Sub id sub)
    (standard : sub.all Body.isStandard = true) :
    (sub.handle env home id).Preserves (Constants.Sparse tree home) := by
  induction id, sub using child_induction with
  | node id body slots ih =>
    have hslots := standard
    rw [all, Bool.and_eq_true] at hslots
    apply handle_preserves_of_child
    · intro accessor haccessor
      rw [plain id] at haccessor
      cases haccessor
    · intro index entry hentry
      exact ih index entry hentry (hsub.child hentry) (all_child hslots.2 hentry)
    · intro source act hact hask hget
      rw [hget]
      apply Eval.Preserves.traced
      apply Eval.Preserves.visiting
      refine .cached hask hact (fun constants h => h.check id) ?_
      intro world after hanswer constants value h
      rw [ask_constant_of_standard standard] at hanswer
      simp only [Prod.mk.injEq, Except.ok.injEq] at hanswer
      exact h.keep hsub hanswer.1

theorem Reaches.sparse {constants : Constants} (reached : tree.Reaches home constants)
    (standard : tree.all Body.isStandard = true) : constants.Sparse tree home := by
  have hpreserves : ∀ {env : Env}, env.Plain home → ∀ id,
      (tree.handleAt env home id).Preserves (Constants.Sparse tree home) := by
    intro env plain id
    apply handleAt_preserves_of_sub
    intro id sub hsub
    exact handle_sparse plain hsub (hsub.all standard)
  induction reached with
  | blank h => exact .of_blank fun id => by rw [h id]
  | get _ plain id source ih => exact (hpreserves plain id).get source _ ih
  | set _ plain id target value ih => exact (hpreserves plain id).set target value _ ih
  | other _ h ih => exact ih.of_value_eq fun id => by rw [h id]

end Tree
end ObjectNavigation
