import ObjectNavigation.Source.Grammar.Item.Function
/-!
Declarations of types and values. The result of a declaration tells whether it is complete.
-/
namespace ObjectNavigation.Source
namespace Grammar
open TokenParser

/-! ### Fields -/

/-- Fields with a name, nested in fields without one at most `depth` times. -/
def namedFieldsWithin (g : Grammar) : Nat → TokenParser Unit
  | 0 => failure
  | depth + 1 => do
    discard <| group .brace <| items do
      attributes g
      discard visibility
      let unnamed ← word? "_"
      unless unnamed do discard name
      discard <| mark ":"
      let tokens ← ahead
      if unnamed && (Next.word "struct" tokens ||
          Next.word "union" tokens && Next.group .brace (← second)) then
        let start ← here
        discard anyName
        namedFieldsWithin g depth
        respell start tokens
      else discard <| g.type true

def namedFields (g : Grammar) : TokenParser Unit := do
  namedFieldsWithin g (Token.listSize (← ahead))

def plainFields (g : Grammar) : TokenParser Unit := do
  discard <| group .paren <| items do
    attributes g
    discard visibility
    discard <| g.type true

/-! ### Types -/

def structureItem (g : Grammar) : TokenParser Bool := do
  discard name
  discard <| genericParameters g
  if Next.group .paren (← ahead) then
    plainFields g
    discard <| conditions g
    discard <| mark ";"
  else
    discard <| conditions g
    unless ← mark? ";" do namedFields g
  return true

def unionItem (g : Grammar) : TokenParser Bool := do
  discard name
  discard <| genericParameters g
  discard <| conditions g
  namedFields g
  return true

/-- One of the alternatives. Where it is visible can be said, and is dropped. -/
def variant (g : Grammar) : TokenParser Unit := do
  attributes g
  let start ← here
  discard visibility
  unprint start
  discard name
  if Next.group .brace (← ahead) then namedFields g
  else if Next.group .paren (← ahead) then plainFields g
  if ← mark? "=" then discard g.whole

def enumItem (g : Grammar) : TokenParser Bool := do
  discard name
  discard <| genericParameters g
  discard <| conditions g
  discard <| group .brace (items (variant g))
  return true

/-- Which of its parts the name of a type has. -/
structure AliasParts where
  colon : Bool
  meaning : Bool

def aliasStops (tokens : List Token) : Bool :=
  Next.word "where" tokens || Next.mark "=" tokens || Next.mark ";" tokens

/-- A name for a type. Conditions can stand before its meaning, after it, or in either place. -/
def typeAlias (g : Grammar) (before after : Bool) : TokenParser AliasParts := do
  word "type"
  discard name
  discard <| genericParameters g
  let colon ← bounded g aliasStops
  let found ← if before then conditions g else pure false
  let meaning ← mark? "="
  if meaning then discard <| g.type true
  if after && !found then discard <| conditions g
  discard <| mark ";"
  return { colon, meaning }

/-! ### Values -/

/-- A value that is fixed, from its name on. It is complete if it has a value and depends on
nothing; `optional` tells whether it can do without a value. -/
def constantItem (g : Grammar) (optional : Bool) : TokenParser Bool := do
  unless ← word? "_" do discard name
  let general ← genericParameters g
  discard <| mark ":"
  discard <| g.type true
  let given ← mark? "="
  if given then discard g.whole
  let conditional ← conditions g
  discard <| mark ";"
  return (given || optional) && !general && !conditional

/-- A value in one place. It is complete if it has a type and a value. -/
def staticItem (g : Grammar) : TokenParser Bool := do
  discard <| word? "mut"
  discard name
  let typed := !Next.mark "=" (← ahead)
  if typed then
    discard <| mark ":"
    discard <| g.type true
  let given ← mark? "="
  if given then discard g.whole
  discard <| mark ";"
  return typed && given

/-! ### Names of other declarations -/

/-- What is imported from a path; groups may be nested at most `depth` times. Two colons before it
start from the outside of all, which can be said once. The result tells whether they stand only
at its head. -/
def importedWithin : Nat → (outside : Bool) → TokenParser Bool
  | 0, _ => failure
  | depth + 1, outside =>
    untilDone (fun outside => do
      if Next.group .brace (← ahead) then
        let found ← group .brace <| items do
          let leading ← if outside then mark? "::" else pure false
          let plain ← importedWithin depth (outside && !leading)
          return plain && !leading
        return .inr (found.all id)
      if ← mark? "*" then return .inr true
      require (Next.name (← ahead) || Next.word "try" (← ahead) ||
        pathWord (← ahead) && !Next.word "Self" (← ahead))
      discard anyName
      if ← mark? "::" then return .inl false
      if ← word? "as" then
        unless ← word? "_" do discard name
      return .inr true) outside

/-- An import. It is complete if nothing in its groups starts from the outside of all. -/
def importItem : TokenParser Bool := do
  let leading ← mark? "::"
  let plain ← importedWithin (Token.listSize (← ahead)) !leading
  discard <| mark ";"
  return plain

end Grammar
end ObjectNavigation.Source
