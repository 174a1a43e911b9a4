import ObjectNavigation.Source.Grammar.Type
/-!
Patterns. Like types they have no part in what an expression means.
-/
namespace ObjectNavigation.Source
namespace Grammar
open TokenParser

def barAhead (tokens : List Token) : Bool :=
  Next.mark "|" tokens && !Next.mark "||" tokens && !Next.mark "|=" tokens

/-- Alternatives, with or without a bar before the first. The result is that of a lone pattern. -/
def alternatives (g : Grammar) : TokenParser PatternShape := do
  let leading ← mark? "|"
  let shape ← g.pattern
  let more := leading || barAhead (← ahead)
  whileAhead barAhead do
    discard <| mark "|"
    discard g.pattern
  return if more then .plain else shape

/-- The dots of a range and whether it needs an upper end. Three dots are an old spelling, which
is replaced by the new one. -/
def rangeDots (old : Bool) : TokenParser Bool := do
  if ← mark? "..=" then return true
  if Next.mark "..." (← ahead) then
    require old
    let start ← here
    let offset ← mark "..."
    reprint start (marks offset ['.', '.', '='])
    return true
  discard <| mark ".."
  return false

def rangeEnds (tokens : List Token) : Bool :=
  tokens.isEmpty || Next.mark "|" tokens || Next.mark "=" tokens ||
    Next.mark ":" tokens && !Next.mark "::" tokens || Next.mark "," tokens ||
    Next.mark ";" tokens || Next.word "if" tokens

def rangeEnd? (g : Grammar) : TokenParser Bool := do
  let tokens ← ahead
  if rangeEnds tokens then return false
  if Next.literal tokens then literal
  else if ← word? "const" then g.block true
  else
    require (Next.name tokens || pathWord tokens || Next.mark "::" tokens || Next.mark "<" tokens)
    discard <| qualifiedPath g true
  return true

def rangeRest (g : Grammar) : TokenParser PatternShape := do
  let needed ← rangeDots true
  let found ← rangeEnd? g
  require (found || !needed)
  return if found then .range else .openRange

def fieldPattern (g : Grammar) : TokenParser Unit := do
  let marked := (← word? "box") || false
  let marked := (← word? "ref") || marked
  let marked := (← word? "mut") || marked
  if marked then discard name
  else
    let named := Next.name (← ahead)
    discard member
    if !named || Next.mark ":" (← ahead) then
      discard <| mark ":"
      discard <| alternatives g

/-- The fields of a structure pattern, which two dots may end. -/
def fieldPatterns (g : Grammar) : TokenParser Unit :=
  untilDone (fun _ => do
    if ← atEnd then return .inr ()
    attributes g
    if ← mark? ".." then return .inr ()
    fieldPattern g
    if ← atEnd then return .inr ()
    discard <| mark ","
    return .inl ()) ()

def pathPattern (g : Grammar) : TokenParser PatternShape := do
  let path ← qualifiedPath g true
  let tokens ← ahead
  if !path.qualified && bangAhead tokens && !path.arguments then
    discard bang
    return .plain
  else if Next.group .brace tokens then
    group .brace (fieldPatterns g)
    return .plain
  else if Next.group .paren tokens then
    discard <| group .paren (items (alternatives g))
    return .plain
  else if Next.mark ".." tokens then rangeRest g
  else return .plain

/-- Whether a name is the beginning of more than a binding. -/
def pathPatternAhead : TokenParser Bool := do
  let tokens ← ahead
  let next ← second
  return Next.name tokens && (Next.mark "::" next || Next.mark "!" next ||
      Next.group .brace next || Next.group .paren next || Next.mark ".." next) ||
    Next.word "self" tokens && Next.mark "::" next || Next.mark "::" tokens ||
    Next.mark "<" tokens || Next.word "Self" tokens || Next.word "super" tokens ||
    Next.word "crate" tokens

def patternStep (g : Grammar) : TokenParser PatternShape := do
  if ← pathPatternAhead then return ← pathPattern g
  let start ← here
  let tokens ← ahead
  if ← word? "_" then return .plain
  else if ← word? "box" then
    discard g.pattern
    respell start tokens
    return .spelled
  else if Next.literal tokens || Next.word "const" tokens then
    discard <| rangeEnd? g
    if Next.mark ".." (← ahead) then rangeRest g
    else return if Next.literal tokens then .plain else .block
  else if Next.word "ref" tokens || Next.word "mut" tokens || Next.word "self" tokens ||
      Next.name tokens then
    discard <| word? "ref"
    discard <| word? "mut"
    unless ← word? "self" do discard name
    if ← mark? "@" then discard g.pattern
    return .plain
  else if ← mark? "&" then
    discard <| word? "mut"
    discard g.pattern
    return .plain
  else if Next.group .paren tokens then
    discard <| group .paren (items (alternatives g))
    return .plain
  else if Next.group .bracket tokens then
    discard <| group .bracket (items do require ((← alternatives g) != .openRange))
    return .plain
  else if Next.mark ".." tokens then
    let needed ← rangeDots false
    let found ← rangeEnd? g
    require (found || !needed)
    return if found then .openRange else .plain
  else failure

end Grammar
end ObjectNavigation.Source
