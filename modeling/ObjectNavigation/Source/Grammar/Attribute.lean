import ObjectNavigation.Source.Grammar.Basic
/-!
Attributes, which can be put in front of things or, with a bang, inside them. An attribute has no
attributes of its own.
-/
namespace ObjectNavigation.Source
namespace Grammar
open TokenParser

/-- The reserved words that can be segments of a path. -/
def pathWord (tokens : List Token) : Bool :=
  Next.word "super" tokens || Next.word "self" tokens || Next.word "Self" tokens ||
    Next.word "crate" tokens

def plainPath : TokenParser Unit := do
  discard <| mark? "::"
  let segment : TokenParser Unit := do
    require (Next.name (← ahead) || pathWord (← ahead))
    discard anyName
  segment
  whileAhead (Next.mark "::") do
    discard <| mark "::"
    segment

def anyGroupAhead (tokens : List Token) : Bool :=
  Next.group .paren tokens || Next.group .bracket tokens || Next.group .brace tokens

/-- A path with a group or a value. Only a literal with nothing after it is read as such. -/
def attributeContent (g : Grammar) : TokenParser Unit := do
  unless ← word? "unsafe" do plainPath
  if anyGroupAhead (← ahead) then discard anyGroup
  else if ← mark? "=" then
    let lone ← perhaps do
      literal
      require (← atEnd)
    unless lone.isSome do
      require !(Next.mark "#" (← ahead) && Next.group .bracket (← second))
      discard g.whole

def oneAttribute (g : Grammar) (inner : Bool) : TokenParser Unit := do
  discard <| mark "#"
  if inner then discard <| mark "!"
  group .bracket (attributeContent g)

def attributes (g : Grammar) : TokenParser Unit :=
  whileAhead (Next.mark "#") (oneAttribute g false)

def innerAttributes (g : Grammar) : TokenParser Unit :=
  whileAhead (fun tokens => Next.mark "#" tokens && Next.mark "!" (skipToken tokens))
    (oneAttribute g true)

end Grammar
end ObjectNavigation.Source
