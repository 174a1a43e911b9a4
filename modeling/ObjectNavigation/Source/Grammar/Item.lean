import ObjectNavigation.Source.Grammar.Item.Member
/-!
Declarations, which can stand among the statements of a block. One with a part that is missing or
out of the ordinary is kept exactly as it is spelled.
-/
namespace ObjectNavigation.Source
namespace Grammar
open TokenParser

def moduleItem (g : Grammar) : TokenParser Bool := do
  discard <| word? "unsafe"
  word "mod"
  unless ← word? "try" do discard name
  unless ← mark? ";" do members g g.item
  return true

def linkedItem : TokenParser Bool := do
  word "extern"
  word "crate"
  unless ← word? "self" do discard name
  if ← word? "as" then
    unless ← word? "_" do discard name
  discard <| mark ";"
  return true

def foreignItem (g : Grammar) : TokenParser Bool := do
  discard <| word? "unsafe"
  require (Next.word "extern" (← ahead))
  foreignName
  members g (foreignMember g)
  return true

/-! ### Types and interfaces -/

/-- The members of a type, which can be those of an interface for it. They are out of the ordinary
if this is said to be constant or visible, or if something that is no path takes the place of the
interface. -/
def methodsItem (g : Grammar) (isVisible : Bool) : TokenParser Bool := do
  discard <| word? "default"
  discard <| word? "unsafe"
  word "impl"
  if parametersAhead (← ahead) then discard <| genericParameters g
  let constant ←
    if Next.mark "?" (← ahead) && Next.word "const" (← second) then
      discard <| mark "?"
      word? "const"
    else word? "const"
  let negative ← if Next.group .brace (← second) then pure false else mark? "!"
  let first ← g.type true
  let isFor ← word? "for"
  if isFor then discard <| g.type true
  require (isFor || !negative)
  discard <| conditions g
  members g (typeMember g)
  return !isVisible && !constant && (!isFor || first == .segment || first == .path)

def interfaceStops (tokens : List Token) : Bool :=
  Next.word "where" tokens || Next.group .brace tokens

def interfaceAliasStops (tokens : List Token) : Bool :=
  Next.word "where" tokens || Next.mark ";" tokens

def interfaceItem (g : Grammar) : TokenParser Bool := do
  let special ← word? "unsafe"
  let special := (← word? "auto") || special
  word "trait"
  discard name
  discard <| genericParameters g
  if !special && (← mark? "=") then
    discard <| boundList g .object interfaceAliasStops
    discard <| conditions g
    discard <| mark ";"
  else
    discard <| bounded g interfaceStops
    discard <| conditions g
    members g (interfaceMember g)
  return true

/-! ### Bangs -/

/-- A bang with a name of its own, the body of which is not read. -/
def bangDefinition : TokenParser Bool := do
  word "macro"
  discard name
  if Next.group .paren (← ahead) then discard anyGroup
  require (Next.group .brace (← ahead))
  discard anyGroup
  return false

def bangItem : TokenParser Bool := do
  require (bangPathAhead (← ahead))
  plainPath
  discard <| mark "!"
  unless ← word? "try" do
    if Next.name (← ahead) then discard name
  unless (← anyGroup) == .brace do discard <| mark ";"
  return true

/-! ### All declarations -/

/-- A declaration after its attributes. The result tells whether it is complete. -/
def itemContent (g : Grammar) : TokenParser Bool := do
  let isVisible ← visibility
  let tokens ← ahead
  let next ← second
  if ← functionAhead false then
    discard <| signature g false
    functionBody g
  else if Next.word "extern" tokens && Next.word "crate" next then linkedItem
  else if Next.word "extern" tokens || Next.word "unsafe" tokens && Next.word "extern" next then
    require !isVisible
    foreignItem g
  else if ← word? "use" then importItem
  else if ← word? "static" then staticItem g
  else if ← word? "const" then constantItem g false
  else if Next.word "mod" tokens || Next.word "unsafe" tokens && Next.word "mod" next then
    moduleItem g
  else if Next.word "type" tokens then
    let parts ← typeAlias g true false
    return parts.meaning && !parts.colon
  else if ← word? "struct" then structureItem g
  else if ← word? "enum" then enumItem g
  else if Next.word "union" tokens && Next.name next then
    word "union"
    unionItem g
  else if Next.word "trait" tokens || Next.word "auto" tokens && Next.word "trait" next ||
      Next.word "unsafe" tokens && (Next.word "trait" next || Next.word "auto" next) then
    interfaceItem g
  else if Next.word "impl" tokens || Next.word "unsafe" tokens && Next.word "impl" next ||
      Next.word "default" tokens && !Next.mark "!" next then methodsItem g isVisible
  else if Next.word "macro" tokens then bangDefinition
  else
    require !isVisible
    bangItem

/-- A declaration after its attributes, where `before` is what was ahead before them. -/
def itemRest (g : Grammar) (start : Nat) (before : List Token) : TokenParser Unit := do
  unless ← itemContent g do respell start before

def itemStep (g : Grammar) : TokenParser Unit :=
  declared g (itemContent g)

def itemAhead : TokenParser Bool := do
  let tokens ← ahead
  let next ← second
  let third ← third
  let asyncFunction := ["unsafe", "extern", "fn"].any (Next.word · third)
  return ["pub", "extern", "use", "fn", "mod", "type", "struct", "enum", "trait", "impl",
      "macro"].any (Next.word · tokens) ||
    Next.word "crate" tokens && !Next.mark "::" next ||
    Next.word "static" tokens && (Next.word "mut" next || Next.name next) ||
    Next.word "const" tokens && !(Next.group .brace next || Next.word "static" next ||
      Next.word "move" next || Next.mark "|" next ||
      Next.word "async" next && !asyncFunction) ||
    Next.word "unsafe" tokens && !Next.group .brace next ||
    Next.word "async" tokens &&
      (Next.word "unsafe" next || Next.word "extern" next || Next.word "fn" next) ||
    Next.word "union" tokens && Next.name next ||
    Next.word "auto" tokens && Next.word "trait" next ||
    Next.word "default" tokens && (Next.word "unsafe" next || Next.word "impl" next)

end Grammar
end ObjectNavigation.Source
