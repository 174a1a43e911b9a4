import ObjectNavigation.Source.Grammar.Item.Data
/-!
What can be declared in a group: the members of a type, of an interface, and of a foreign library.
A member with a part that is missing or has no place there is kept exactly as it is spelled.
-/
namespace ObjectNavigation.Source
namespace Grammar
open TokenParser

def bangPathAhead (tokens : List Token) : Bool :=
  Next.name tokens || Next.mark "::" tokens || pathWord tokens && !Next.word "Self" tokens

def bangMember : TokenParser Unit := do
  require (bangPathAhead (← ahead))
  plainPath
  unless (← bang) == .brace do discard <| mark ";"

/-- Reads a member after its attributes; it is kept as it is spelled unless it is complete. -/
def declared (g : Grammar) (content : TokenParser Bool) : TokenParser Unit := do
  let start ← here
  let before ← ahead
  attributes g
  unless ← content do respell start before

def typeMember (g : Grammar) : TokenParser Unit :=
  declared g do
    let isVisible ← visibility
    let isDefault ← if Next.mark "!" (← second) then pure false else word? "default"
    let tokens ← ahead
    if ← functionAhead false then
      discard <| signature g false
      functionBody g
    else if ← word? "const" then constantItem g false
    else if Next.word "type" tokens then
      let parts ← typeAlias g false true
      return parts.meaning && !parts.colon
    else
      require !(isVisible || isDefault)
      bangMember
      return true

def interfaceMember (g : Grammar) : TokenParser Unit :=
  declared g do
    let isVisible ← visibility
    let isDefault ← word? "default"
    let marked := isVisible || isDefault
    let tokens ← ahead
    if ← functionAhead false then
      discard <| signature g false
      discard <| functionBody g
      return !marked
    else if ← word? "const" then return (← constantItem g true) && !marked
    else if Next.word "type" tokens then
      discard <| typeAlias g false true
      return !marked
    else
      require !marked
      bangMember
      return true

/-- A value of a foreign library, which is not given. -/
def foreignStatic (g : Grammar) : TokenParser Bool := do
  let marked ← if ← word? "unsafe" then pure true else word? "safe"
  word "static"
  discard <| word? "mut"
  discard name
  discard <| mark ":"
  discard <| g.type true
  let given ← mark? "="
  if given then discard g.whole
  discard <| mark ";"
  return !marked && !given

def foreignMember (g : Grammar) : TokenParser Unit :=
  declared g do
    let isVisible ← visibility
    let tokens ← ahead
    if ← functionAhead true then
      let isSafe ← signature g true
      let given ← functionBody g
      return !isSafe && !given
    else if Next.word "static" tokens ||
        (Next.word "unsafe" tokens || Next.word "safe" tokens) &&
          Next.word "static" (← second) then
      foreignStatic g
    else if Next.word "type" tokens then
      let parts ← typeAlias g true true
      return !parts.meaning && !parts.colon
    else
      require !isVisible
      bangMember
      return true

/-- Members in braces, after the attributes that are about all of them. -/
def members (g : Grammar) (member : TokenParser Unit) : TokenParser Unit :=
  group .brace do
    innerAttributes g
    whileAhead (!·.isEmpty) member

end Grammar
end ObjectNavigation.Source
