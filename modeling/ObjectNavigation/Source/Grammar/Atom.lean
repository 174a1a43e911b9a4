import ObjectNavigation.Source.Grammar.Joined
/-!
Atoms: literals, paths, bracketed expressions, and everything that starts with a word of its own.
-/
namespace ObjectNavigation.Source
namespace Grammar
open TokenParser

/-! ### Literals, paths and brackets -/

def literalAtom : TokenParser Expr := do
  match ← token with
  | .literal offset text value => return .literal offset text value
  | .name offset text => return .literal offset text (.bool (text == "true"))
  | _ => failure

def fieldValue (g : Grammar) : TokenParser Unit := do
  attributes g
  let named := Next.name (← ahead)
  discard member
  if !named || Next.mark ":" (← ahead) then
    discard <| mark ":"
    discard g.whole

/-- The fields of a structure, which two dots and the rest may end. -/
def fieldValues (g : Grammar) : TokenParser Unit :=
  untilDone (fun _ => do
    if ← atEnd then return .inr ()
    if ← mark? ".." then
      unless ← atEnd do discard g.whole
      return .inr ()
    fieldValue g
    if ← atEnd then return .inr ()
    discard <| mark ","
    return .inl ()) ()

def pathAtom (g : Grammar) (structs : Bool) : TokenParser Expr := do
  let path ← qualifiedPath g true
  if !path.qualified && bangAhead (← ahead) && !path.arguments then
    return .other (.bang ((← bang) == .brace)) []
  else if structs && Next.group .brace (← ahead) then
    group .brace (fieldValues g)
    return .other .plain []
  else return .path path.segments path.simple []

def parenAtom (g : Grammar) : TokenParser Expr :=
  group .paren do
    if ← atEnd then return .other .plain []
    let first ← g.whole
    if ← atEnd then return .paren first
    discard <| mark ","
    discard <| items g.whole
    return .other .plain []

def listAtom (g : Grammar) : TokenParser Expr :=
  group .bracket do
    if ← atEnd then return .list []
    let first ← g.whole
    if ← atEnd then return .list [first]
    if ← mark? ";" then
      discard g.whole
      return .other .plain []
    discard <| mark ","
    return .list (first :: (← items g.whole))

/-! ### Words -/

def expressionAhead (tokens : List Token) : Bool :=
  Next.anyWord tokens && !Next.word "as" tokens || anyGroupAhead tokens || Next.literal tokens ||
    Next.mark "!" tokens && !Next.mark "!=" tokens ||
    Next.mark "-" tokens && !Next.mark "-=" tokens && !Next.mark "->" tokens ||
    Next.mark "*" tokens && !Next.mark "*=" tokens ||
    Next.mark "|" tokens && !Next.mark "|=" tokens ||
    Next.mark "&" tokens && !Next.mark "&=" tokens || Next.mark ".." tokens ||
    Next.mark "<" tokens && !Next.mark "<=" tokens && !Next.mark "<<=" tokens ||
    Next.mark "::" tokens || Next.lifetime tokens || Next.mark "#" tokens

/-- Tokens after the attributes at their head that are about what holds them. -/
def afterInnerAttributes : List Token → List Token
  | .mark _ '#' _ :: .mark _ '!' _ :: .group _ .bracket _ :: rest => afterInnerAttributes rest
  | tokens => tokens

/-- Gives a pattern that was read from `first` on the attributes before it, from `start` on. A
range is put in parentheses after them, a constant block has them in place of its own, and a
pattern that is kept as it is spelled loses them. -/
def attributedPattern (start first : Nat) (shape : PatternShape) : TokenParser Unit := do
  let tokens ← since first
  match shape, tokens with
  | .spelled, _ => reprint start tokens
  | .block, [word, .group offset .brace content] =>
    reprint first [word, .group offset .brace (afterInnerAttributes content)]
  | _, _ =>
    if start < first && (shape == .range || shape == .openRange) then
      reprint first [.parenthesized tokens]

/-- A parameter of a closure. If it has a type, the attributes before it are about the whole. -/
def closureParameter (g : Grammar) : TokenParser Unit := do
  let start ← here
  attributes g
  let first ← here
  let shape ← g.pattern
  if ← mark? ":" then discard <| g.type true
  else attributedPattern start first shape

def closure (g : Grammar) (structs : Bool) : TokenParser Unit := do
  discard <| boundParameters? g
  for modifier in ["const", "static", "async", "move"] do
    discard <| word? modifier
  discard <| mark "|"
  untilDone (fun _ => do
    if Next.mark "|" (← ahead) then return .inr ()
    closureParameter g
    if Next.mark "|" (← ahead) then return .inr ()
    discard <| mark ","
    return .inl ()) ()
  discard <| mark "|"
  if Next.mark "->" (← ahead) then
    returnType g true
    g.block false
  else discard <| g.expression structs

def closureAhead : TokenParser Bool := do
  let tokens ← ahead
  let next ← second
  return Next.mark "|" tokens || Next.word "move" tokens ||
    Next.word "for" tokens && parametersAhead next ||
    Next.word "const" tokens && !Next.group .brace next || Next.word "static" tokens ||
    Next.word "async" tokens && (Next.mark "|" next || Next.word "move" next)

def conditional (g : Grammar) : TokenParser Unit :=
  untilDone (fun _ => do
    word "if"
    discard <| g.expression false
    g.block false
    unless ← word? "else" do return .inr ()
    if Next.word "if" (← ahead) then return .inl ()
    g.block false
    return .inr ()) ()

def arm (g : Grammar) : TokenParser Unit := do
  attributes g
  discard <| alternatives g
  if ← word? "if" then discard g.whole
  discard <| mark "=>"
  let body ← g.statement
  if body.shape == .block || (← atEnd) then discard <| mark? ","
  else discard <| mark ","

/-- The expressions that start with a block or end with one; the result tells whether one was
found. -/
def blockAtom? (g : Grammar) : TokenParser Bool := do
  let tokens ← ahead
  if Next.word "if" tokens then
    conditional g
    return true
  else if ← word? "while" then
    discard <| g.expression false
    g.block true
    return true
  else if ← word? "for" then
    discard <| alternatives g
    word "in"
    discard <| g.expression false
    g.block true
    return true
  else if ← word? "loop" then
    g.block true
    return true
  else if ← word? "match" then
    discard <| g.expression false
    group .brace do
      innerAttributes g
      whileAhead (!·.isEmpty) (arm g)
    return true
  else if ← word? "unsafe" then
    g.block true
    return true
  else if (Next.word "const" tokens || Next.word "try" tokens) &&
      Next.group .brace (← second) then
    discard anyName
    g.block (Next.word "const" tokens)
    return true
  else if Next.group .brace tokens then
    g.block true
    return true
  else return false

def labeled (g : Grammar) : TokenParser Unit := do
  lifetime
  discard <| mark ":"
  let tokens ← ahead
  require (Next.word "while" tokens || Next.word "for" tokens || Next.word "loop" tokens ||
    Next.group .brace tokens)
  require (← blockAtom? g)

def breakAtom (g : Grammar) (structs : Bool) : TokenParser Unit := do
  word "break"
  if ← lifetime? then require !(Next.mark ":" (← ahead))
  if expressionAhead (← ahead) && (structs || !Next.group .brace (← ahead)) then
    discard g.whole

/-- The expressions with a word or mark of their own that are neither paths nor blocks. -/
def wordAtom (g : Grammar) (structs : Bool) : TokenParser Expr := do
  let tokens ← ahead
  if Next.word "break" tokens then
    breakAtom g structs
    return .other .plain []
  else if ← word? "continue" then
    discard lifetime?
    return .other .plain []
  else if Next.word "return" tokens || Next.word "yield" tokens then
    discard anyName
    if expressionAhead (← ahead) then discard g.whole
    return .other .plain []
  else if ← word? "become" then
    discard g.whole
    return .other .spelled []
  else if ← word? "let" then
    discard <| alternatives g
    discard <| mark "="
    let start ← here
    discard <| continuedStep g structs start (← g.operand structs) Level.compare
    return .other .plain []
  else if Next.mark ".." tokens then
    rangeTail g structs
    return .other .range []
  else if ← word? "_" then return .other .plain []
  else failure

def pathAhead : TokenParser Bool := do
  let tokens ← ahead
  let next ← second
  return Next.name tokens || Next.mark "::" tokens || Next.mark "<" tokens || pathWord tokens ||
    Next.word "try" tokens && (Next.mark "!" next || Next.mark "::" next)

def atomStep (g : Grammar) (structs : Bool) : TokenParser Expr := do
  let tokens ← ahead
  let next ← second
  if Next.literal tokens then literalAtom
  else if Next.word "async" tokens && (Next.group .brace next ||
      Next.word "move" next && Next.group .brace (← third)) then
    word "async"
    discard <| word? "move"
    g.block false
    return .other .plain []
  else if Next.word "try" tokens && Next.group .brace next then
    discard <| blockAtom? g
    return .other .block []
  else if ← closureAhead then
    closure g structs
    return .other .plain []
  else if builtinAhead tokens then
    builtin
    return .other .spelled []
  else if ← pathAhead then pathAtom g structs
  else if Next.group .paren tokens then parenAtom g
  else if Next.group .bracket tokens then listAtom g
  else if Next.lifetime tokens then
    labeled g
    return .other .block []
  else if ← blockAtom? g then return .other .block []
  else wordAtom g structs

end Grammar
end ObjectNavigation.Source
