import ObjectNavigation.Proofs.Builder.Branch
import ObjectNavigation.Source.Lowering

/-!
The tree of an expression by recursion on the expression. A sum takes over the operands of the sums
among its operands, a product those of the products, and an access goes on with the links of its
base; every other node has its operands as they are written. An expression has a tree exactly if
it is supported, and so is everything in it.
-/

namespace ObjectNavigation.Source

/-- The constant that a literal stands for. -/
def Literal.constant? : Literal → Option Value
  | int n => if n < Nat.pow 2 63 then some (.int (Int64.ofNat n)) else none
  | float digits exponent => some (.float (Decimal.Numeral.nearest ⟨digits, exponent⟩))
  | .text s => some (.string s)
  | bool b => some (.bool b)
  | bytes => none

namespace Expr

mutual

def Supported : Expr → Prop
  | literal _ _ value =>
    match value with
    | .int n => n < Nat.pow 2 63
    | .bytes => False
    | _ => True
  | path segments simple _ => segments.length = 1 ∧ simple = true
  | field base _ => base.Supported
  | invoke receiver _ arguments => receiver.Supported ∧ AllSupported arguments
  | call segments arguments => segments ≠ [] ∧ AllSupported arguments
  | apply _ => False
  | binary operator _ left right =>
    operator ∈ ["+", "-", "*", "/"] ∧ left.Supported ∧ right.Supported
  | unary operator _ operand => operator = "-" ∧ operand.Supported
  | list items => AllSupported items
  | paren inner => inner.Supported
  | other _ _ => False

def AllSupported : List Expr → Prop
  | [] => True
  | e :: rest => e.Supported ∧ AllSupported rest

end

mutual

def normal? : Expr → Option Tree
  | literal _ _ value => value.constant?.map fun value => .node (.const value) []
  | path segments simple _ =>
    match segments, simple with
    | [name], true => some (.node (if name = "null" then .const .null else .property name) [])
    | _, _ => none
  | field base name => do
    let base ← base.normal?
    return .node .chain (base.spread .chain ++ [some (.node (.property name) [])])
  | invoke receiver method arguments => do
    let receiver ← receiver.normal?
    let arguments ← normalAll? arguments
    return .node .chain
      (receiver.spread .chain ++ [some (.node (.method method) (arguments.map some))])
  | call segments arguments => do
    let arguments ← normalAll? arguments
    match segments.reverse with
    | [] => none
    | [name] => return .node (.method name) (arguments.map some)
    | name :: types =>
      return .node (.staticMethod (".".intercalate types.reverse) name) (arguments.map some)
  | apply _ => none
  | binary operator _ left right => do
    let left ← left.normal?
    let right ← right.normal?
    match operator with
    | "+" => return .node (.arithmetic .add) (left.spread .add ++ right.spread .add)
    | "-" => return .node (.arithmetic .subtract) [some left, some right]
    | "*" =>
      return .node (.arithmetic .multiply) (left.spread .multiply ++ right.spread .multiply)
    | "/" => return .node (.arithmetic .divide) [some left, some right]
    | _ => none
  | unary operator _ operand =>
    if operator = "-" then do
      let operand ← operand.normal?
      return .node .negate [some operand]
    else none
  | list items => do
    let items ← normalAll? items
    return .node .list (items.map some)
  | paren inner => inner.normal?
  | other _ _ => none

def normalAll? : List Expr → Option (List Tree)
  | [] => some []
  | e :: rest => do
    let tree ← e.normal?
    let trees ← normalAll? rest
    return tree :: trees

end

/-! ### Calls and operators -/

theorem normal?_call (segments : List String) (arguments : List Expr) :
    (call segments arguments).normal? = (callBody segments).bind fun body =>
      (normalAll? arguments).bind fun trees => some (.node body (trees.map some)) := by
  obtain ⟨path, rfl⟩ : ∃ path : List String, segments = path.reverse :=
    ⟨segments.reverse, segments.reverse_reverse.symm⟩
  rw [normal?, List.reverse_reverse, callBody]
  match path with
  | [] => cases normalAll? arguments <;> rfl
  | [name] => rfl
  | name :: type :: types =>
    have hdrop : (name :: type :: types).reverse.dropLast = (type :: types).reverse := by simp
    rw [List.getLast?_reverse, List.head?_cons, Option.map_some, hdrop]
    change ((normalAll? arguments).bind fun trees => some (Tree.node
      (.staticMethod (".".intercalate (type :: types).reverse) name) (trees.map some))) = _
    cases hpath : (type :: types).reverse with
    | nil => simp at hpath
    | cons => rfl

theorem isSome_operation?_iff (operator : String) :
    (operation? operator).isSome ↔ operator ∈ ["+", "-", "*", "/"] := by
  rw [operation?, List.find?_isSome]
  simp only [List.mem_cons, List.not_mem_nil, or_false, exists_eq_or_imp, exists_eq_left,
    decide_eq_true_eq, Operation.symbol, eq_comm (b := operator)]

theorem operation?_symbol (op : Operation) : operation? op.symbol = some op := by
  cases op <;> rfl

theorem normal?_binary (operator : String) (offset : Nat) (left right : Expr) :
    (binary operator offset left right).normal? = left.normal?.bind fun left =>
      right.normal?.bind fun right => (operation? operator).bind fun op =>
        match op with
        | .add => some (.node (.arithmetic .add) (left.spread .add ++ right.spread .add))
        | .multiply =>
          some (.node (.arithmetic .multiply) (left.spread .multiply ++ right.spread .multiply))
        | op => some (.node (.arithmetic op) [some left, some right]) := by
  rw [normal?]
  refine congrArg _ (funext fun left => congrArg _ (funext fun right => ?_))
  split
  · rfl
  · rfl
  · rfl
  · rfl
  next hadd hsubtract hmultiply hdivide =>
    have hnone : operation? operator = none := by
      rw [← Option.not_isSome_iff_eq_none, isSome_operation?_iff]
      simpa using ⟨hadd, hsubtract, hmultiply, hdivide⟩
    rw [hnone]
    rfl

/-! ### What is supported -/

theorem isSome_callBody_iff (segments : List String) :
    (callBody segments).isSome ↔ segments ≠ [] := by
  simp [callBody]

mutual

theorem isSome_normal?_iff (e : Expr) : e.normal?.isSome ↔ e.Supported := by
  match e with
  | literal offset text value =>
    cases value with
    | int n => by_cases h : n < Nat.pow 2 63 <;> simp [normal?, Supported, Literal.constant?, h]
    | float digits exponent => simp [normal?, Supported, Literal.constant?]
    | text s => simp [normal?, Supported, Literal.constant?]
    | bool b => simp [normal?, Supported, Literal.constant?]
    | bytes => simp [normal?, Supported, Literal.constant?]
  | path segments simple tokens =>
    match segments, simple with
    | [], simple => simp [normal?, Supported]
    | [name], true => simp [normal?, Supported]
    | [name], false => simp [normal?, Supported]
    | _ :: _ :: _, simple => simp [normal?, Supported]
  | field base name =>
    rw [normal?, Supported, ← isSome_normal?_iff base]
    cases base.normal? <;> simp
  | invoke receiver method arguments =>
    rw [normal?, Supported, ← isSome_normal?_iff receiver, ← isSome_normalAll?_iff arguments]
    cases receiver.normal? <;> cases normalAll? arguments <;> simp
  | call segments arguments =>
    rw [normal?_call, Supported, ← isSome_callBody_iff, ← isSome_normalAll?_iff arguments]
    cases callBody segments <;> cases normalAll? arguments <;> simp
  | apply target => simp [normal?, Supported]
  | binary operator offset left right =>
    rw [normal?_binary, Supported, ← isSome_operation?_iff, ← isSome_normal?_iff left,
      ← isSome_normal?_iff right]
    cases left.normal? <;> cases right.normal? <;> cases operation? operator with
    | none => simp
    | some op => cases op <;> simp
  | unary operator offset operand =>
    rw [normal?, Supported, ← isSome_normal?_iff operand]
    by_cases h : operator = "-" <;> cases operand.normal? <;> simp [h]
  | list items =>
    rw [normal?, Supported, ← isSome_normalAll?_iff items]
    cases normalAll? items <;> simp
  | paren inner =>
    rw [normal?, Supported]
    exact isSome_normal?_iff inner
  | other shape tokens => simp [normal?, Supported]

theorem isSome_normalAll?_iff (es : List Expr) : (normalAll? es).isSome ↔ AllSupported es := by
  match es with
  | [] => simp [normalAll?, AllSupported]
  | e :: rest =>
    rw [normalAll?, AllSupported, ← isSome_normal?_iff e, ← isSome_normalAll?_iff rest]
    cases e.normal? <;> cases normalAll? rest <;> simp

end

end Expr
end ObjectNavigation.Source
