import ObjectNavigation.Source.Grammar.Item
import ObjectNavigation.Source.Grammar.Operand
/-!
Blocks of statements. A statement that does not end with a block needs a semicolon, unless it is
the last one.
-/
namespace ObjectNavigation.Source
namespace Grammar
open TokenParser

/-- The kinds of statement that a path and a bang begin. -/
inductive BangStatement where
  | item
  | statement
  deriving DecidableEq

def bangStatement? : TokenParser (Option BangStatement) := do
  match ← attempt plainPath with
  | some (_, after) =>
    if Next.mark "!" after.rest then
      let next := skipToken after.rest
      let third := skipToken next
      if Next.name next || Next.word "try" next then return some .item
      else if Next.group .brace next &&
          !(Next.mark "." third && !Next.mark ".." third || Next.mark "?" third) then
        return some .statement
    return none
  | none => return none

def binding (g : Grammar) : TokenParser Unit := do
  word "let"
  discard g.pattern
  if ← mark? ":" then discard <| g.type true
  if ← mark? "=" then
    discard g.whole
    match (← cursor).printed with
    | .group _ .brace _ :: _ => pure ()
    | _ => if ← word? "else" then g.block false
  discard <| mark ";"

/-- One statement. The result tells whether another one can follow. -/
def oneStatement (g : Grammar) : TokenParser Bool := do
  let start ← here
  let before ← ahead
  attributes g
  match ← bangStatement? with
  | some .item => itemRest g start before; return true
  | some .statement =>
    plainPath
    discard bang
    discard <| mark? ";"
    return true
  | none =>
    if Next.word "let" (← ahead) then binding g; return true
    else if ← itemAhead then itemRest g start before; return true
    else
      let first ← here
      let e ← attributed start first (← g.statement)
      if ← mark? ";" then return true
      return e.shape == .block || e.shape == .bang true

def statements (g : Grammar) : TokenParser Unit :=
  untilDone (fun _ => do
    whileAhead (Next.mark ";") (discard <| mark ";")
    if ← atEnd then return .inr ()
    let followed ← oneStatement g
    if ← atEnd then return .inr ()
    require followed
    return .inl ()) ()

def blockStep (g : Grammar) (inner : Bool) : TokenParser Unit :=
  group .brace do
    if inner then innerAttributes g
    statements g

end Grammar
end ObjectNavigation.Source
