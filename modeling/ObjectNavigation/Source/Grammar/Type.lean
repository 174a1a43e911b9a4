import ObjectNavigation.Source.Grammar.Path
/-!
Types. They have no part in what an expression means; what matters is where they end, and that
they are written with the lifetimes first.
-/
namespace ObjectNavigation.Source
namespace Grammar
open TokenParser

/-! ### Bounds -/

/-- What a type that is known by its bounds captures. -/
def captures : TokenParser Unit := do
  word "use"
  discard <| angled do
    if ← lifetime? then return true
    unless ← word? "Self" do discard name
    return false

/-- Types of arguments in parentheses and of a result in place of the arguments of a trait. Empty
arguments before them are dropped, and so are colons. -/
def functionArguments (g : Grammar) (path : Path) : TokenParser Unit := do
  let tokens ← ahead
  if path.last != .given && (Next.group .paren tokens ||
      Next.mark "::" tokens && Next.group .paren (← third)) then
    if let .empty start := path.last then unprint start
    let start ← here
    if ← mark? "::" then unprint start
    discard <| group .paren (items (g.type true))
    returnType g false

/-- A trait as a bound. The result tells whether it is marked as constant, for certain or, in
brackets, as far as what it is about is. -/
def traitBound (g : Grammar) (place : BoundPlace) : TokenParser Bool := do
  let general ← boundParameters? g
  let constant ←
    if Next.group .bracket (← ahead) then
      group .bracket (word "const")
      pure true
    else word? "const"
  require !(constant && place == .object)
  let relaxed ← mark? "?"
  functionArguments g (← path g false)
  require !(general && relaxed)
  return constant

/-- A bound. One that is constant is kept as it is spelled. -/
def boundStep (g : Grammar) (place : BoundPlace) : TokenParser Bool := do
  if ← lifetime? then return false
  let start ← here
  let before ← ahead
  if Next.word "use" before then
    require (place == .unnamed)
    captures
    return false
  let constant ←
    if Next.group .paren before then group .paren (traitBound g place) else traitBound g place
  if constant then respell start before
  return true

def boundAhead (place : BoundPlace) (tokens : List Token) : Bool :=
  Next.anyWord tokens || Next.mark "::" tokens || Next.mark "?" tokens || Next.lifetime tokens ||
    Next.group .paren tokens || place != .object && Next.group .bracket tokens

/-- One bound, or as many as there are if `plus` is set. One of them has to be a trait. -/
def bounds (g : Grammar) (place : BoundPlace) (plus : Bool) : TokenParser Unit := do
  let found ← if plus then joined (boundAhead place) (boundStep g place)
    else pure [← boundStep g place]
  require (found.any id)

/-- Further bounds after a first one, the last of which may be followed by a plus. -/
def furtherBounds (g : Grammar) : TokenParser Unit :=
  untilDone (fun _ => do
    unless ← mark? "+" do return .inr ()
    unless boundAhead .object (← ahead) do return .inr ()
    discard <| boundStep g .object
    return .inl ()) ()

/-! ### Functions -/

def labelAhead (tokens : List Token) : Bool :=
  let next := skipToken tokens
  (Next.name tokens || Next.word "_" tokens) && Next.mark ":" next && !Next.mark "::" next

/-- Further arguments of any number, with or without a name. -/
def variadicAhead (tokens : List Token) : Bool :=
  Next.mark "..." tokens ||
    labelAhead tokens && Next.mark "..." (skipToken (skipToken tokens))

/-- Whether the object that a function is called on comes next, marked as changing. -/
def changingAhead (tokens : List Token) : Bool :=
  Next.word "mut" tokens && Next.word "self" (skipToken tokens)

/-- An argument of a function type, with or without a name. The first one can be the object that
the function is called on; where that is marked as changing, the argument is kept as it is
spelled. -/
def functionTypeArgument (g : Grammar) (first : Bool) : TokenParser Unit := do
  let start ← here
  let before ← ahead
  let changing := first && changingAhead before
  if changing then word "mut"
  let tokens ← ahead
  let receiver := first && Next.word "self" tokens && Next.mark ":" (← second) &&
    !Next.mark "::" (← second)
  let labeled := labelAhead tokens || receiver
  if labeled then
    discard anyName
    discard <| mark ":"
  if first && !receiver && changingAhead (← ahead) then
    word "mut"
    word "self"
    respell start before
  else if changing && !labeled then
    word "self"
    respell start before
  else
    discard <| g.type true
    if changing then respell start before

def functionTypeArguments (g : Grammar) : TokenParser Unit :=
  untilDone (fun first => do
    if ← atEnd then return .inr ()
    attributes g
    if variadicAhead (← ahead) then
      if labelAhead (← ahead) then
        discard anyName
        discard <| mark ":"
      discard <| mark "..."
      discard <| mark? ","
      return .inr ()
    functionTypeArgument g first
    if ← atEnd then return .inr ()
    discard <| mark ","
    return .inl false) true

def foreignName : TokenParser Unit := do
  if ← word? "extern" then
    if Next.string (← ahead) then discard token

def functionType (g : Grammar) : TokenParser Unit := do
  discard <| word? "unsafe"
  foreignName
  word "fn"
  group .paren (functionTypeArguments g)
  returnType g false

/-! ### Types -/

/-- What parentheses hold, as far as bounds may follow them. -/
inductive ParenContent where
  /-- A bound with a question mark, which makes the whole a bound. -/
  | relaxed
  /-- What can be a bound. -/
  | bound
  | other
  deriving DecidableEq, Inhabited

def parenContent (g : Grammar) : TokenParser ParenContent := do
  if ← atEnd then return .other
  if Next.lifetime (← ahead) then
    bounds g .object true
    return .other
  if Next.mark "?" (← ahead) then
    discard <| traitBound g .object
    return .relaxed
  let first ← g.type true
  if ← mark? "," then
    discard <| items (g.type true)
    return .other
  return if first == .other then .other else .bound

/-- A type in parentheses, or several with commas. After a plus another bound is needed; a first
bound that has parentheses of its own does without the others. -/
def parenType (g : Grammar) (plus : Bool) : TokenParser TypeShape := do
  let start ← here
  let content ← group .paren (parenContent g)
  if content == .relaxed || content == .bound && plus then
    let more := Next.mark "+" (← ahead)
    if more then
      if let [.group _ .paren [.group offset .paren inner]] ← since start then
        reprint start [.group offset .paren inner]
    whileAhead (Next.mark "+") do
      discard <| mark "+"
      discard <| boundStep g .object
    return if content == .relaxed && !more then .bound else .other
  else return .other

/-- A type that a path names, or a bang after it. Parameters before a bang, from `start` on, are
dropped. -/
def pathType (g : Grammar) (start : Nat) (general plus : Bool) : TokenParser TypeShape := do
  let place ← here
  let path ← qualifiedPath g false
  if path.qualified then return .other
  if bangAhead (← ahead) && !path.arguments then
    discard bang
    reprint start (← since place)
    return .other
  if plus && Next.mark "+" (← ahead) then
    furtherBounds g
    return .other
  return if general then .bound
    else if path.segments.length = 1 && !path.leading then .segment else .path

/-- Something that is built in, which is kept as it is spelled. -/
def builtin : TokenParser Unit := do
  word "builtin"
  discard <| mark "#"
  discard name
  require (Next.group .paren (← ahead))
  discard anyGroup

def builtinAhead (tokens : List Token) : Bool :=
  Next.word "builtin" tokens && Next.mark "#" (skipToken tokens)

def typeStep (g : Grammar) (plus : Bool) : TokenParser TypeShape := do
  let start ← here
  let general ← boundParameters? g
  let tokens ← ahead
  if Next.word "fn" tokens || Next.word "unsafe" tokens || Next.word "extern" tokens then
    functionType g
    return .other
  else if builtinAhead tokens then
    builtin
    return .other
  else if Next.name tokens || pathWord tokens then pathType g start general plus
  else if general then failure
  else if Next.mark "::" tokens || Next.mark "<" tokens then pathType g start false plus
  else if Next.group .paren tokens then parenType g plus
  else if ← word? "dyn" then
    let special ← mark? "*"
    bounds g .object plus
    if special then respell start tokens
    return .other
  else if Next.group .bracket tokens then
    group .bracket do
      discard <| g.type true
      if ← mark? ";" then discard g.whole
    return .other
  else if ← mark? "*" then
    unless ← word? "const" do word "mut"
    discard <| g.type false
    return .other
  else if ← mark? "&" then
    discard lifetime?
    discard <| word? "mut"
    discard <| g.type false
    return .other
  else if ← mark? "!" then return .other
  else if ← word? "impl" then
    bounds g .unnamed plus
    return .other
  else if ← word? "_" then return .other
  else if Next.lifetime tokens then
    bounds g .object true
    return .other
  else failure

end Grammar
end ObjectNavigation.Source
