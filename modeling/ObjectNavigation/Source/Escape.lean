import ObjectNavigation.Text.Identifier
/-!
Quoted literals. A scanner takes the characters after the opening mark and returns the text that
is meant together with what follows the closing mark. A carriage return is allowed only as part
of a line end, and a line end after a backslash is skipped with all blanks that follow.
-/
namespace ObjectNavigation.Source

def hexDigit? (c : Char) : Option Nat :=
  if '0' ≤ c ∧ c ≤ '9' then some (c.toNat - '0'.toNat)
  else if 'a' ≤ c ∧ c ≤ 'f' then some (c.toNat - 'a'.toNat + 10)
  else if 'A' ≤ c ∧ c ≤ 'F' then some (c.toNat - 'A'.toNat + 10)
  else none

def scalar? (n : Nat) : Option Char :=
  if n.isValidChar then some (Char.ofNat n) else none

/-- What a quoted literal may contain. -/
structure Flavor where
  /-- Codes after `\x` are below this. -/
  codeLimit : Nat
  /-- Whether `\u` is known. -/
  unicode : Bool
  /-- Whether the character with code zero can occur. -/
  nul : Bool
  /-- Whether all other characters are ASCII. -/
  ascii : Bool

namespace Flavor

def string : Flavor := ⟨0x80, true, true, false⟩

def bytes : Flavor := ⟨0x100, false, true, true⟩

def terminated : Flavor := ⟨0x100, true, false, false⟩

def admits (flavor : Flavor) (c : Char) : Bool :=
  flavor.nul || c.toNat != 0

def plain (flavor : Flavor) (c : Char) : Bool :=
  flavor.admits c && (!flavor.ascii || c.toNat < 0x80)

end Flavor

/-- One to six hexadecimal digits up to the closing brace; `value` and `count` are those read
before. Underscores between them are skipped. -/
def codePoint? (value count : Nat) : List Char → Option (Nat × List Char)
  | [] => none
  | c :: rest =>
    if c = '}' then if count = 0 then none else some (value, rest)
    else if c = '_' then if count = 0 then none else codePoint? value count rest
    else
      match hexDigit? c with
      | some digit => if count < 6 then codePoint? (16 * value + digit) (count + 1) rest else none
      | none => none

def escapeLetter? (c : Char) : Option Char :=
  match c with
  | 'n' => some '\n'
  | 'r' => some '\r'
  | 't' => some '\t'
  | '\\' => some '\\'
  | '\'' => some '\''
  | '"' => some '"'
  | '0' => some '\x00'
  | _ => none

def escape? (flavor : Flavor) (cs : List Char) : Option (Char × List Char) := do
  let (c, rest) ← match cs with
    | 'x' :: high :: low :: rest => do
      let code := 16 * (← hexDigit? high) + (← hexDigit? low)
      if code < flavor.codeLimit then pure (Char.ofNat code, rest) else none
    | 'u' :: '{' :: rest => do
      let (code, rest) ← codePoint? 0 0 rest
      if flavor.unicode then pure (← scalar? code, rest) else none
    | letter :: rest => do pure (← escapeLetter? letter, rest)
    | [] => none
  if flavor.admits c then some (c, rest) else none

/-- What follows the blanks and line ends; it must not be the end of the source. -/
def skipGap : List Char → Option (List Char)
  | [] => none
  | '\r' :: '\n' :: rest => skipGap rest
  | '\r' :: _ => none
  | c :: rest => if c = ' ' ∨ c = '\t' ∨ c = '\n' then skipGap rest else some (c :: rest)

/-- The text up to the closing quote. Every round takes at least one character. -/
def cookedWithin (flavor : Flavor) : Nat → List Char → Option (List Char × List Char)
  | 0, _ => none
  | _, [] => none
  | rounds + 1, c :: rest =>
    if c = '"' then some ([], rest)
    else if c = '\\' then
      if rest.head?.any fun next => next = '\n' || next = '\r' then do
        cookedWithin flavor rounds (← skipGap rest)
      else do
        let (c, rest) ← escape? flavor rest
        let (cs, rest) ← cookedWithin flavor rounds rest
        some (c :: cs, rest)
    else if c = '\r' then
      if rest.head? = some '\n' then cookedWithin flavor rounds rest else none
    else if flavor.plain c then do
      let (cs, rest) ← cookedWithin flavor rounds rest
      some (c :: cs, rest)
    else none

def cooked? (flavor : Flavor) (cs : List Char) : Option (List Char × List Char) :=
  cookedWithin flavor cs.length cs

/-- The text up to a quote that as many number signs follow as `fence` has. -/
def fenced? (flavor : Flavor) (fence : List Char) : List Char → Option (List Char × List Char)
  | [] => none
  | c :: rest =>
    if c = '"' && fence.isPrefixOf rest then some ([], rest.drop fence.length)
    else if c = '\r' && rest.head? != some '\n' then none
    else if flavor.plain c then do
      let (cs, rest) ← fenced? flavor fence rest
      some (c :: cs, rest)
    else none

/-- A raw text after its `r`: at most 255 number signs, a quote, and the text. -/
def raw? (flavor : Flavor) (cs : List Char) : Option (List Char × List Char) :=
  let fence := cs.takeWhile (· == '#')
  match cs.drop fence.length with
  | '"' :: rest => if fence.length ≤ 255 then fenced? flavor fence rest else none
  | _ => none

def character? (flavor : Flavor) (cs : List Char) : Option (Char × List Char) := do
  let (c, rest) ← match cs with
    | '\\' :: rest => escape? flavor rest
    | c :: rest => if flavor.plain c then some (c, rest) else none
    | [] => none
  match rest with
  | '\'' :: rest => some (c, rest)
  | _ => none

end ObjectNavigation.Source
