import ObjectNavigation.Source.Grammar.Attribute
/-!
Generic parameters and the conditions on them. Lifetimes are written before other parameters, and
what is empty is dropped: brackets without parameters, colons without bounds, and the word that
announces conditions if there are none.
-/
namespace ObjectNavigation.Source
namespace Grammar
open TokenParser

/-! ### Angle brackets -/

/-- A part in angle brackets; `lifetime` tells whether it is one. -/
structure Part where
  lifetime : Bool
  tokens : List Token
  comma : Bool

/-- The parts one after the other with a comma between any two. -/
def Part.list : List Part → List Token
  | [] => []
  | [a] => a.tokens ++ if a.comma then [.mark 0 ',' false] else []
  | a :: rest => a.tokens ++ .mark 0 ',' false :: list rest

/-- Parts in angle brackets, lifetimes first. The result tells whether there are any. -/
def angled (part : TokenParser Bool) : TokenParser Bool := do
  discard <| mark "<"
  let start ← here
  let parts : List Part ← untilDone (fun found => do
    if Next.mark ">" (← ahead) then return .inr found.reverse
    let place ← here
    let lifetime ← part
    let tokens ← since place
    if Next.mark ">" (← ahead) then return .inr (⟨lifetime, tokens, false⟩ :: found).reverse
    discard <| mark ","
    return .inl (⟨lifetime, tokens, true⟩ :: found)) []
  let (lifetimes, others) := parts.partition Part.lifetime
  reprint start (Part.list (lifetimes ++ others))
  discard <| mark ">"
  return !parts.isEmpty

def constantAhead (tokens : List Token) : Bool :=
  Next.literal tokens || Next.group .brace tokens

def constant (g : Grammar) : TokenParser Unit := do
  if Next.literal (← ahead) then literal
  else if Next.group .brace (← ahead) then g.block true
  else discard name

/-! ### Parameters -/

/-- Lifetimes with a plus between any two. The result tells whether there are any. -/
def lifetimes : TokenParser Bool :=
  untilDone (fun found => do
    unless ← lifetime? do return .inr found
    if ← mark? "+" then return .inl true else return .inr true) false

def lifetimeParameter : TokenParser Unit := do
  lifetime
  let start ← here
  if ← mark? ":" then
    unless ← lifetimes do unprint start

/-- Bounds with a plus between any two, up to where they stop. The result tells whether there are
any. -/
def boundList (g : Grammar) (place : BoundPlace) (stops : List Token → Bool) :
    TokenParser Bool :=
  untilDone (fun found => do
    if stops (← ahead) then return .inr found
    discard <| g.bound place
    if ← mark? "+" then return .inl true else return .inr true) false

/-- Bounds after a colon, if there is one. The result tells whether there is. -/
def bounded (g : Grammar) (stops : List Token → Bool) : TokenParser Bool := do
  let start ← here
  unless ← mark? ":" do return false
  unless ← boundList g .constraint stops do unprint start
  return true

def parameterStops (tokens : List Token) : Bool :=
  tokens.isEmpty || Next.mark "," tokens || Next.mark ">" tokens || Next.mark "=" tokens

/-- A parameter; `unnamed` tells whether it may be without a name. The result tells whether it is
a lifetime. -/
def genericParameter (g : Grammar) (unnamed : Bool) : TokenParser Bool := do
  attributes g
  if Next.lifetime (← ahead) then
    lifetimeParameter
    return true
  if ← word? "const" then
    discard name
    discard <| mark ":"
    discard <| g.type true
    if ← mark? "=" then constant g
  else if unnamed && Next.word "_" (← ahead) then discard anyName
  else
    discard name
    discard <| bounded g parameterStops
    if ← mark? "=" then discard <| g.type true
  return false

/-- The parameters of a declaration. The result tells whether there are brackets for them. -/
def genericParameters (g : Grammar) : TokenParser Bool := do
  unless Next.mark "<" (← ahead) do return false
  let start ← here
  unless ← angled (genericParameter g true) do unprint start
  return true

/-- Parameters for which something is to hold, if there are any. They keep their order. -/
def boundParameters? (g : Grammar) : TokenParser Bool := do
  unless ← word? "for" do return false
  discard <| mark "<"
  untilDone (fun _ => do
    if Next.mark ">" (← ahead) then return .inr ()
    discard <| genericParameter g false
    if Next.mark ">" (← ahead) then return .inr ()
    discard <| mark ","
    return .inl ()) ()
  discard <| mark ">"
  return true

/-- Whether parameters come next rather than a type that starts with an angle bracket. -/
def parametersAhead (tokens : List Token) : Bool :=
  let next := skipToken tokens
  let after := skipToken next
  Next.mark "<" tokens &&
    (Next.mark ">" next || Next.mark "#" next || Next.word "const" next ||
      (Next.name next || Next.lifetime next) &&
        (Next.mark ">" after || Next.mark "," after || Next.mark "=" after ||
          Next.mark ":" after && !Next.mark "::" after))

/-! ### Conditions -/

def conditionsStop (tokens : List Token) : Bool :=
  tokens.isEmpty || Next.group .brace tokens || Next.mark "," tokens || Next.mark ";" tokens ||
    Next.mark ":" tokens && !Next.mark "::" tokens || Next.mark "=" tokens

def condition (g : Grammar) : TokenParser Unit := do
  if Next.lifetime (← ahead) && Next.mark ":" (← second) then
    lifetime
    discard <| mark ":"
    discard lifetimes
  else
    discard <| boundParameters? g
    discard <| g.type true
    discard <| mark ":"
    discard <| boundList g .constraint conditionsStop

/-- The conditions on parameters. The result tells whether any are announced. -/
def conditions (g : Grammar) : TokenParser Bool := do
  let start ← here
  unless ← word? "where" do return false
  require !(parametersAhead (← ahead))
  let any ← untilDone (fun any => do
    if conditionsStop (← ahead) then return .inr any
    condition g
    if ← mark? "," then return .inl true else return .inr true) false
  unless any do unprint start
  return true

end Grammar
end ObjectNavigation.Source
