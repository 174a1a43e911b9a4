import ObjectNavigation.Proofs.Node.Order
import ObjectNavigation.Proofs.Source.Normal

/-!
Lowering an expression gives its tree by recursion. What has been made for the operands stays as it
is until the node over them is made: later operands are made of new nodes only. So each node is made
over nodes that depict the trees of the operands, and none of the calls on the builder is refused.
-/

namespace ObjectNavigation

/-- From `before` to `after`, new nodes were made that depict `trees`, and no other was changed. -/
structure Builder.Makes (before after : Builder) (ids : List NodeId) (trees : List Tree) :
    Prop where
  grows : before.slots.size ≤ after.slots.size
  keeps : ∀ n < before.slots.size, after.slot? n = before.slot? n
  free : ∀ c ∈ ids, after.parent? c = none
  depicts : ∃ order, after.DepictsSlots (trees.map some) (ids.map some) order ∧ order.Nodup ∧
    ∀ n ∈ order, before.slots.size ≤ n

namespace Builder.Makes
variable {before between after : Builder} {ids more : List NodeId} {trees others : List Tree}

theorem nothing (builder : Builder) : builder.Makes builder [] [] where
  grows := Nat.le_refl _
  keeps _ _ := rfl
  free c hc := by cases hc
  depicts := ⟨[], ⟨rfl, rfl⟩, .nil, fun n hn => by cases hn⟩

theorem lt_of_depicts {builder : Builder} {slots : List (Option Tree)} {ids : List (Option NodeId)}
    {order : List NodeId} (h : builder.DepictsSlots slots ids order) {n : NodeId} (hn : n ∈ order) :
    n < builder.slots.size := by
  obtain ⟨held, hheld, _⟩ := h.closed hn
  exact (Array.getElem?_eq_some_iff.1 hheld).1

theorem append (first : before.Makes between ids trees) (second : between.Makes after more others) :
    before.Makes after (ids ++ more) (trees ++ others) := by
  obtain ⟨order, hdepicts, hnodup, hnew⟩ := first.depicts
  obtain ⟨last, hlast, hnodup', hnew'⟩ := second.depicts
  have hold : ∀ n ∈ order, after.slot? n = between.slot? n := fun n hn =>
    second.keeps n (lt_of_depicts hdepicts hn)
  refine ⟨Nat.le_trans first.grows second.grows, fun n hn => ?_, fun c hc => ?_,
    order ++ last, ?_, ?_, fun n hn => ?_⟩
  · rw [second.keeps n (Nat.lt_of_lt_of_le hn first.grows), first.keeps n hn]
  · rcases List.mem_append.1 hc with hc | hc
    · rw [Builder.parent?, hold c (hdepicts.sublist.mem hc)]
      exact first.free c hc
    · exact second.free c hc
  · rw [List.map_append, List.map_append]
    refine (hdepicts.congr fun n hn => ?_).append hlast
    rw [content?, hold n hn, content?]
  · refine List.nodup_append.2 ⟨hnodup, hnodup', ?_⟩
    rintro n hn _ hn' rfl
    exact Nat.lt_irrefl n (Nat.lt_of_lt_of_le (lt_of_depicts hdepicts hn) (hnew' n hn'))
  · rcases List.mem_append.1 hn with hn | hn
    · exact hnew n hn
    · exact Nat.le_trans first.grows (hnew' n hn)

theorem branch (made : before.Makes between ids trees) (body : Body) :
    ∃ id after, between.branch body (ids.map some) = .ok (id, after) ∧
      before.Makes after [id] [.joined body trees] := by
  obtain ⟨order, hdepicts, hnodup, hnew⟩ := made.depicts
  obtain ⟨after, order', hbranch, hsub, hjoined, hfree, hframe⟩ :=
    branch_depicts hdepicts hnodup made.free
  have hslots : after.DepictsSlots [some (.joined body trees)] [some between.slots.size]
      (between.slots.size :: order') :=
    ⟨_, [], _, [], rfl, hjoined, ⟨rfl, rfl⟩, (List.append_nil _).symm⟩
  refine ⟨_, after, hbranch, ?_, fun n hn => ?_, fun c hc => ?_, _, hslots, ?_, fun n hn => ?_⟩
  · exact Nat.le_of_lt (Nat.lt_of_le_of_lt made.grows (lt_of_depicts hslots List.mem_cons_self))
  · rw [hframe n (Nat.ne_of_lt (Nat.lt_of_lt_of_le hn made.grows)), made.keeps n hn]
    exact fun hmem => Nat.not_le_of_lt hn (hnew n hmem)
  · rw [List.mem_singleton.1 hc]
    exact hfree
  · refine List.nodup_cons.2 ⟨fun hmem => ?_, hnodup.sublist hsub⟩
    exact Nat.lt_irrefl _ (lt_of_depicts hdepicts (hsub.mem hmem))
  · rcases List.mem_cons.1 hn with rfl | hn
    · exact made.grows
    · exact hnew n (hsub.mem hn)

end Builder.Makes

namespace Source
open Builder

/-- How lowering comes out: with new nodes that depict the trees of the expression, or with an error
that no call on a builder raised, and the expression has no trees. -/
def Lowers {α β : Type} (ids : α → List NodeId) (trees : β → List Tree) (builder : Builder)
    (made? : Option β) : Except LoweringError (α × Builder) → Prop
  | .ok (a, built) => ∃ made, made? = some made ∧ builder.Makes built (ids a) (trees made)
  | .error e => made? = none ∧ ∀ refused, e ≠ .ofBuildError refused

namespace Lowers
variable {α β γ δ : Type} {ids : α → List NodeId} {trees : β → List Tree}
  {ids' : γ → List NodeId} {trees' : δ → List Tree} {builder between : Builder}

theorem bind {made? : Option β} {first : Lowering α} {next : α → Lowering γ}
    {go : β → Option δ} {start : Builder}
    (h : Lowers ids trees builder made? (first start))
    (hnext : ∀ a built made, made? = some made → builder.Makes built (ids a) (trees made) →
      Lowers ids' trees' builder (go made) (next a built)) :
    Lowers ids' trees' builder (made?.bind go) ((first >>= next) start) := by
  have hbind : (first >>= next) start = (first start).bind fun made => next made.1 made.2 := rfl
  rw [hbind]
  cases hfirst : first start with
  | error e =>
    rw [hfirst] at h
    obtain ⟨rfl, herror⟩ := h
    exact ⟨rfl, herror⟩
  | ok made =>
    rw [hfirst] at h
    obtain ⟨tree, rfl, hmakes⟩ := h
    exact hnext made.1 made.2 tree rfl hmakes

theorem after {kept : List NodeId} {old : List Tree} {made? : Option β}
    {outcome : Except LoweringError (α × Builder)} (first : builder.Makes between kept old)
    (h : Lowers ids trees between made? outcome) :
    Lowers (fun a => kept ++ ids a) (fun made => old ++ trees made) builder made? outcome := by
  cases outcome with
  | error e => exact h
  | ok made =>
    obtain ⟨tree, rfl, hmakes⟩ := h
    exact ⟨tree, rfl, first.append hmakes⟩

theorem branch {kept : List NodeId} {old : List Tree} (made : builder.Makes between kept old)
    (body : Body) : Lowers (fun id => [id]) (fun tree => [tree]) builder
      (some (.joined body old)) (Lowering.branch body kept between) := by
  obtain ⟨id, built, hbranch, hmakes⟩ := made.branch body
  rw [Lowering.branch, hbranch]
  exact ⟨_, rfl, hmakes⟩

theorem leaf (builder : Builder) (body : Body) : Lowers (fun id => [id]) (fun tree => [tree])
    builder (some (.node body [])) (Lowering.leaf body builder) := by
  have h := Lowers.branch (Makes.nothing builder) body
  have hjoined : Tree.joined body [] = .node body [] := by simp [Tree.joined]
  rwa [hjoined] at h

end Lowers

namespace Expr

theorem joined_chain {base link : Tree} (hlink : link.kind ≠ .chain) :
    Tree.joined .chain [base, link] = .node .chain (base.spread .chain ++ [some link]) := by
  have hspread : link.spread .chain = [some link] := if_neg hlink
  simp [Tree.joined, Body.flattens, Body.kind, hspread]

theorem unsupported_ne (source : List Char) (what : String) (offset : Nat) (snippet : String)
    (refused : BuildError) :
    LoweringError.unsupported source what offset snippet ≠ .ofBuildError refused := by
  intro h
  cases congrArg LoweringError.location h

theorem lowers_literal (source : List Char) (offset : Nat) (text : String) (value : Literal)
    (builder : Builder) :
    Lowers (fun id => [id]) (fun tree => [tree]) builder
      (value.constant?.map fun constant => .node (.const constant) [])
      (lower source (literal offset text value) builder) := by
  have hlower : lower source (literal offset text value) builder =
      (value.value source offset text).bind fun constant =>
        Lowering.leaf (.const constant) builder := by
    rw [lower]
    cases value.value source offset text <;> rfl
  rw [hlower]
  cases value with
  | int n =>
    rw [Literal.value, Literal.constant?]
    by_cases h : n < Nat.pow 2 63
    · rw [if_pos h, if_pos h]
      exact Lowers.leaf builder _
    · rw [if_neg h, if_neg h]
      refine ⟨rfl, fun refused heq => ?_⟩
      cases congrArg LoweringError.location heq
  | bytes => exact ⟨rfl, unsupported_ne _ _ _ _⟩
  | float digits exponent => exact Lowers.leaf builder _
  | text s => exact Lowers.leaf builder _
  | bool b => exact Lowers.leaf builder _

theorem joined_binary (op : Operation) (left right : Tree) :
    Tree.joined (.arithmetic op) [left, right] =
      match op with
      | .add => .node (.arithmetic .add) (left.spread .add ++ right.spread .add)
      | .multiply =>
        .node (.arithmetic .multiply) (left.spread .multiply ++ right.spread .multiply)
      | op => .node (.arithmetic op) [some left, some right] := by
  cases op <;> simp [Tree.joined, Body.flattens, Body.kind, Operation.kind]

theorem joined_callBody {segments : List String} {body : Body} (h : callBody segments = some body)
    (trees : List Tree) : Tree.joined body trees = .node body (trees.map some) := by
  obtain ⟨name, _, hbody⟩ := Option.map_eq_some_iff.1 h
  have hflattens : body.flattens = false := by
    rw [← hbody]
    split <;> rfl
  rw [Tree.joined, hflattens]
  rfl

/-- A link is made whole before it and what stands before it are put into one chain. -/
theorem lowers_link {builder built : Builder} {baseId : NodeId} {base : Tree}
    (makes : builder.Makes built [baseId] [base]) {link? : Option Tree}
    (hkind : ∀ link, link? = some link → link.kind ≠ .chain) {link : Lowering NodeId}
    (hlink : Lowers (fun id => [id]) (fun tree => [tree]) built link? (link built)) :
    Lowers (fun id => [id]) (fun tree => [tree]) builder
      (link?.bind fun link => some (.node .chain (base.spread .chain ++ [some link])))
      ((link >>= fun id => Lowering.branch .chain [baseId, id]) built) := by
  refine Lowers.bind (hlink.after makes) fun id last link heq makes => ?_
  have h := Lowers.branch makes .chain
  rw [List.singleton_append, joined_chain (hkind link heq)] at h
  exact h

section Operands
variable (source : List Char)

theorem lowers_invoke {receiver : Expr} (hreceiver : ∀ builder, Lowers (fun id => [id])
      (fun tree => [tree]) builder receiver.normal? (receiver.lower source builder))
    {arguments : List Expr} (harguments : ∀ builder, Lowers (fun ids => ids) (fun trees => trees)
      builder (normalAll? arguments) (lowerAll source arguments builder)) (method : String)
    (builder : Builder) : Lowers (fun id => [id]) (fun tree => [tree]) builder
      (invoke receiver method arguments).normal?
      ((invoke receiver method arguments).lower source builder) := by
  rw [lower, normal?]
  refine Lowers.bind (hreceiver builder) fun baseId built base _ makes => ?_
  have hlink : Lowers (fun id => [id]) (fun tree => [tree]) built
      ((normalAll? arguments).bind fun trees =>
        some (Tree.node (.method method) (trees.map some)))
      ((lowerAll source arguments >>= Lowering.branch (.method method)) built) :=
    Lowers.bind (harguments built) fun ids filled trees _ makes =>
      Lowers.branch makes (.method method)
  have hgo : (do
        let arguments ← normalAll? arguments
        return Tree.node .chain
          (base.spread .chain ++ [some (.node (.method method) (arguments.map some))])) =
      ((normalAll? arguments).bind fun trees =>
        some (Tree.node (.method method) (trees.map some))).bind fun link =>
          some (Tree.node .chain (base.spread .chain ++ [some link])) := by
    cases normalAll? arguments <;> rfl
  rw [← bind_assoc, hgo]
  refine lowers_link makes (fun link heq => ?_) hlink
  obtain ⟨trees, _, hlink⟩ := Option.bind_eq_some_iff.1 heq
  cases hlink
  simp [Tree.kind, Tree.body, Body.kind]

theorem lowers_binary {left right : Expr} (hleft : ∀ builder, Lowers (fun id => [id])
      (fun tree => [tree]) builder left.normal? (left.lower source builder))
    (hright : ∀ builder, Lowers (fun id => [id]) (fun tree => [tree]) builder right.normal?
      (right.lower source builder)) (operator : String) (offset : Nat) (builder : Builder) :
    Lowers (fun id => [id]) (fun tree => [tree]) builder
      (binary operator offset left right).normal?
      ((binary operator offset left right).lower source builder) := by
  rw [lower, normal?_binary]
  refine Lowers.bind (hleft builder) fun leftId built left _ makes => ?_
  refine Lowers.bind ((hright built).after makes) fun rightId last right _ makes => ?_
  cases operation? operator with
  | none => exact ⟨rfl, unsupported_ne _ _ _ _⟩
  | some op =>
    have h := Lowers.branch makes (.arithmetic op)
    rw [List.singleton_append, joined_binary] at h
    cases op <;> exact h

end Operands

mutual

theorem lowers (source : List Char) (e : Expr) (builder : Builder) :
    Lowers (fun id => [id]) (fun tree => [tree]) builder e.normal? (e.lower source builder) := by
  match e with
  | literal offset text value => exact lowers_literal source offset text value builder
  | path segments simple tokens =>
    -- A path of one plain name is a leaf, and no other is supported.
    match segments, simple with
    | [name], true =>
      rw [lower, normal?]
      exact Lowers.leaf builder _
    | [], simple => exact ⟨rfl, unsupported_ne _ _ _ _⟩
    | [name], false => exact ⟨rfl, unsupported_ne _ _ _ _⟩
    | _ :: _ :: _, simple => exact ⟨rfl, unsupported_ne _ _ _ _⟩
  | field base name =>
    rw [lower, normal?]
    refine Lowers.bind (lowers source base builder) fun baseId built base _ makes => ?_
    refine lowers_link makes ?_ (Lowers.leaf built (.property name))
    rintro _ ⟨⟩
    simp [Tree.kind, Tree.body, Body.kind]
  | invoke receiver method arguments =>
    exact lowers_invoke source (lowers source receiver) (lowersAll source arguments) method builder
  | call segments arguments =>
    rw [lower, normal?_call]
    cases hbody : callBody segments with
    | none => exact ⟨rfl, unsupported_ne _ _ _ _⟩
    | some body =>
      rw [Option.bind_some]
      refine Lowers.bind (lowersAll source arguments builder) fun ids built trees _ makes => ?_
      have h := Lowers.branch makes body
      rw [joined_callBody hbody] at h
      exact h
  | apply target => exact ⟨rfl, unsupported_ne _ _ _ _⟩
  | binary operator offset left right =>
    exact lowers_binary source (lowers source left) (lowers source right) operator offset builder
  | unary operator offset operand =>
    rw [lower, normal?]
    by_cases hop : operator = "-"
    · rw [if_pos hop, if_pos hop]
      refine Lowers.bind (lowers source operand builder) fun id built operand _ makes => ?_
      exact Lowers.branch makes .negate
    · rw [if_neg hop, if_neg hop]
      exact ⟨rfl, unsupported_ne _ _ _ _⟩
  | list items =>
    rw [lower, normal?]
    refine Lowers.bind (lowersAll source items builder) fun ids built trees _ makes => ?_
    exact Lowers.branch makes .list
  | paren inner =>
    rw [lower, normal?]
    exact lowers source inner builder
  | other shape tokens => exact ⟨rfl, unsupported_ne _ _ _ _⟩

theorem lowersAll (source : List Char) (es : List Expr) (builder : Builder) :
    Lowers (fun ids => ids) (fun trees => trees) builder (normalAll? es)
      (lowerAll source es builder) := by
  match es with
  | [] => exact ⟨[], rfl, Makes.nothing builder⟩
  | e :: rest =>
    rw [lowerAll, normalAll?]
    refine Lowers.bind (lowers source e builder) fun id built tree _ makes => ?_
    refine Lowers.bind ((lowersAll source rest built).after makes) fun ids last trees _ makes => ?_
    exact ⟨_, rfl, makes⟩

end

theorem tree_cases (source : List Char) (e : Expr) :
    match e.tree source with
    | .ok tree => e.normal? = some tree
    | .error error => e.normal? = none ∧ ∀ refused, error ≠ .ofBuildError refused := by
  have h := lowers source e ∅
  have htree : e.tree source = (e.lower source ∅).bind fun made =>
      (made.2.finish made.1).mapError .ofBuildError := rfl
  rw [htree]
  cases hlower : e.lower source ∅ with
  | error error =>
    rw [hlower] at h
    exact h
  | ok made =>
    rw [hlower] at h
    obtain ⟨tree, hnormal, makes⟩ := h
    obtain ⟨order, hslots, hnodup, _⟩ := makes.depicts
    obtain ⟨_, _, first, _, hids, hdepicts, ⟨rfl, rfl⟩, rfl⟩ := hslots
    cases hids
    rw [List.append_nil] at hnodup
    have hfinish := hdepicts.finish hnodup (makes.free made.1 List.mem_cons_self)
    change match (made.2.finish made.1).mapError LoweringError.ofBuildError with
      | .ok tree => e.normal? = some tree
      | .error error => e.normal? = none ∧ ∀ refused, error ≠ .ofBuildError refused
    rw [hfinish]
    exact hnormal

/-- An expression has a tree exactly if it is supported, and it is the tree by recursion on the
expression, its nodes numbered in their order; making it never fails for a call on the builder. -/
theorem tree_eq_normal (source : List Char) (e : Expr) :
    ((∃ tree, e.tree source = .ok tree) ↔ e.Supported) ∧
    (∀ tree, e.tree source = .ok tree → e.normal? = some tree ∧ tree.Ordered) ∧
    ∀ error, e.tree source = .error error → ∀ refused, error ≠ .ofBuildError refused := by
  have h := tree_cases source e
  rw [← isSome_normal?_iff]
  cases htree : e.tree source with
  | ok tree =>
    rw [htree] at h
    refine ⟨iff_of_true ⟨tree, rfl⟩ (by rw [h]; rfl), fun tree' heq => ?_, nofun⟩
    cases heq
    exact ⟨h, tree.ordered⟩
  | error error =>
    rw [htree] at h
    refine ⟨iff_of_false (by simp) (by rw [h.1]; simp), nofun, fun error' heq => ?_⟩
    cases heq
    exact h.2

end Expr
end Source
end ObjectNavigation
