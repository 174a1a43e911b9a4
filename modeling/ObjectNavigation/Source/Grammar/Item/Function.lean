import ObjectNavigation.Source.Grammar.Pattern
/-!
Functions and where they are visible.
-/
namespace ObjectNavigation.Source
namespace Grammar
open TokenParser

/-- Where a declaration is visible. The result tells whether this is said. -/
def visibility : TokenParser Bool := do
  unless ← word? "pub" do return false
  discard <| perhaps <| group .paren do
    if ← word? "in" then plainPath
    else
      require (pathWord (← ahead) && !Next.word "Self" (← ahead))
      discard anyName
  return true

/-! ### Parameters -/

/-- Whether the object that a function is called on comes next, and not a path from here. -/
def receiverAhead : TokenParser Bool := do
  let found ← attempt do
    let reference ← mark? "&"
    if reference then discard lifetime?
    discard <| word? "mut"
    word "self"
    require (reference || !Next.mark "::" (← ahead))
  return found.isSome

/-- The object that a function is called on. Only one that is not a reference has a type. -/
def receiver (g : Grammar) : TokenParser Unit := do
  let reference ← mark? "&"
  if reference then discard lifetime?
  discard <| word? "mut"
  word "self"
  unless reference do
    if ← mark? ":" then discard <| g.type true

/-- A parameter that is no receiver. The result tells whether it stands for any number of further
ones. A lone type with arguments is an old spelling for a parameter that is not used. -/
def functionParameter (g : Grammar) : TokenParser Bool := do
  if ← mark? "..." then return true
  if Next.name (← ahead) && Next.mark "<" (← second) then
    let start ← here
    discard <| g.type true
    let type ← since start
    let offset := Token.listOffset type
    reprint start (.name offset "_" :: .mark offset ':' false :: type)
    return false
  discard g.pattern
  discard <| mark ":"
  if ← mark? "..." then return true
  discard <| g.type true
  return false

/-- The parameters of a function. The receiver is the first one, and nothing follows the one that
stands for further ones. -/
def functionParameters (g : Grammar) : TokenParser Unit :=
  untilDone (fun first => do
    if ← atEnd then return .inr ()
    attributes g
    if ← receiverAhead then
      require first
      receiver g
    else if ← functionParameter g then
      discard <| mark? ","
      return .inr ()
    if ← atEnd then return .inr ()
    discard <| mark ","
    return .inl false) true

/-! ### Signatures -/

/-- The words before the word for a function. The result tells whether one of them says that a
foreign function is safe, where that can be said. -/
def functionModifiers (foreign : Bool) : TokenParser Bool := do
  discard <| word? "const"
  discard <| word? "async"
  let isSafe ←
    if ← word? "unsafe" then pure false
    else if foreign then word? "safe"
    else pure false
  foreignName
  return isSafe

/-- Whether a function begins here, from its modifiers on. -/
def functionAhead (foreign : Bool) : TokenParser Bool := do
  let found ← attempt do
    discard <| functionModifiers foreign
    word "fn"
  return found.isSome

/-- All of a function but its body. The result tells whether it is said to be safe. -/
def signature (g : Grammar) (foreign : Bool) : TokenParser Bool := do
  let isSafe ← functionModifiers foreign
  word "fn"
  discard name
  discard <| genericParameters g
  group .paren (functionParameters g)
  returnType g true
  discard <| conditions g
  return isSafe

/-- The body of a function, or a semicolon in its place. The result tells whether there is one. -/
def functionBody (g : Grammar) : TokenParser Bool := do
  if ← mark? ";" then return false
  g.block true
  return true

end Grammar
end ObjectNavigation.Source
