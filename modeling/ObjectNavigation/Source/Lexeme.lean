import ObjectNavigation.Source.Blank
import ObjectNavigation.Source.Number
import ObjectNavigation.Source.Token
/-!
Splitting a source text. The text is first cut into lexemes, the longest literal before the
longest mark before the longest name, and the lexemes are then nested by their brackets.
-/
namespace ObjectNavigation.Source

inductive Lexeme where
  | token (token : Token)
  | opening (offset : Nat) (delimiter : Delimiter)
  | closing (delimiter : Delimiter)

/-! ### Names -/

def plainName? : List Char → Option (List Char × List Char)
  | [] => none
  | c :: rest =>
    if isIdentStart c then
      some (c :: rest.takeWhile isIdentContinue, rest.dropWhile isIdentContinue)
    else none

/-- The names that stand for a place in the surroundings and cannot be raw. -/
def unrawNames : List String :=
  ["_", "super", "self", "Self", "crate"]

/-- A name. A raw name keeps its mark. -/
def name? : List Char → Option (List Char × List Char)
  | 'r' :: '#' :: rest => do
    let (cs, rest) ← plainName? rest
    if String.ofList cs ∈ unrawNames then none else some ('r' :: '#' :: cs, rest)
  | cs => plainName? cs

/-- The openings that announce a literal, so that no name starts there. -/
def literalOpenings : List String :=
  ["r\"", "r#\"", "r##", "b\"", "b'", "br\"", "br#", "c\"", "cr\"", "cr#"]

def opensLiteral (cs : List Char) : Bool :=
  literalOpenings.any fun opening => opening.toList.isPrefixOf cs

/-! ### Marks -/

def isMark (c : Char) : Bool :=
  "~!@#$%^&*-=+|;:,<.>/?'".toList.contains c

/-- Whether a mark starts here; a slash that opens a comment is none. -/
def startsMark : List Char → Bool
  | '/' :: '/' :: _ => false
  | '/' :: '*' :: _ => false
  | c :: _ => isMark c
  | [] => false

/-- A mark, whether it is joint, and what follows. An apostrophe needs a name after it. -/
def mark? (cs : List Char) : Option (Char × Bool × List Char) :=
  if startsMark cs then
    match cs with
    | [] => none
    | '\'' :: rest => do
      let (_, after) ← name? rest
      match after with
      | '\'' :: _ => none
      | '#' :: _ => if "r#".toList.isPrefixOf rest then some ('\'', true, rest) else none
      | _ => some ('\'', true, rest)
    | c :: rest => some (c, startsMark rest, rest)
  else none

/-! ### Literals -/

def quotedLiteral? : List Char → Option (Literal × List Char)
  | '"' :: rest => (cooked? .string rest).map fun (cs, rest) => (.text (String.ofList cs), rest)
  | 'r' :: rest => (raw? .string rest).map fun (cs, rest) => (.text (String.ofList cs), rest)
  | 'b' :: '"' :: rest => (cooked? .bytes rest).map fun (_, rest) => (.bytes, rest)
  | 'b' :: 'r' :: rest => (raw? .bytes rest).map fun (_, rest) => (.bytes, rest)
  | 'b' :: '\'' :: rest => (character? .bytes rest).map fun (_, rest) => (.bytes, rest)
  | 'c' :: '"' :: rest => (cooked? .terminated rest).map fun (_, rest) => (.bytes, rest)
  | 'c' :: 'r' :: rest => (raw? .terminated rest).map fun (_, rest) => (.bytes, rest)
  | '\'' :: rest => (character? .string rest).map fun (c, rest) => (.text c.toString, rest)
  | _ => none

def literal? (cs : List Char) : Option (Literal × List Char) :=
  match quotedLiteral? cs with
  | some (literal, rest) => some (literal, (plainName? rest).elim rest Prod.snd)
  | none => (afterNumber? cs).map fun rest =>
      (Literal.ofNumber (cs.take (cs.length - rest.length)), rest)

/-! ### Lexemes -/

def bracket? : Char → Option (Delimiter × Bool)
  | '(' => some (.paren, true)
  | '[' => some (.bracket, true)
  | '{' => some (.brace, true)
  | ')' => some (.paren, false)
  | ']' => some (.bracket, false)
  | '}' => some (.brace, false)
  | _ => none

/-- The attribute that documentation stands for. -/
def documentationTokens (offset : Nat) (inner : Bool) (text : List Char) : List Token :=
  let literal := String.ofList ('"' :: documentationText text ++ ['"'])
  [.mark offset '#' false] ++ (if inner then [.mark offset '!' false] else []) ++
    [.group offset .bracket [.name offset "doc", .mark offset '=' false,
      .literal offset literal (.text (String.ofList text))]]

def leaf? (offset : Nat) (cs : List Char) : Option (Token × List Char) :=
  match literal? cs with
  | some (literal, rest) =>
    some (.literal offset (String.ofList (cs.take (cs.length - rest.length))) literal, rest)
  | none =>
    match mark? cs with
    | some (c, joint, rest) => some (.mark offset c joint, rest)
    | none =>
      if opensLiteral cs then none
      else (name? cs).map fun (text, rest) => (.name offset (String.ofList text), rest)

def lexeme? (offset : Nat) (cs : List Char) : Option (List Lexeme × List Char) :=
  match documentation? cs with
  | some (inner, text, rest) =>
    if wholeLines text then some ((documentationTokens offset inner text).map .token, rest)
    else none
  | none =>
    match cs with
    | [] => none
    | c :: rest =>
      match bracket? c with
      | some (delimiter, true) => some ([.opening offset delimiter], rest)
      | some (delimiter, false) => some ([.closing delimiter], rest)
      | none => (leaf? offset cs).map fun (token, rest) => ([.token token], rest)

/-- The lexemes of a text whose end is `total` characters from the start of the source. Every
round takes at least one character. -/
def lexemesWithin (total : Nat) : Nat → List Char → Option (List Lexeme)
  | rounds, cs =>
    match skipBlanks cs with
    | [] => some []
    | c :: rest =>
      match rounds with
      | 0 => none
      | rounds + 1 => do
        let (found, rest) ← lexeme? (total - (rest.length + 1)) (c :: rest)
        return found ++ (← lexemesWithin total rounds rest)

/-- Nests lexemes. `outer` holds the groups that are open, each with the tokens before it, and
`before` the tokens of the innermost one, the last token first. -/
def nest? (outer : List (Nat × Delimiter × List Token)) (before : List Token) :
    List Lexeme → Option (List Token)
  | [] => if outer.isEmpty then some before.reverse else none
  | .token token :: rest => nest? outer (token :: before) rest
  | .opening offset delimiter :: rest => nest? ((offset, delimiter, before) :: outer) [] rest
  | .closing delimiter :: rest =>
    match outer with
    | (offset, opened, tokens) :: outer =>
      if opened = delimiter then nest? outer (.group offset delimiter before.reverse :: tokens) rest
      else none
    | [] => none

/-- A byte order mark at the start is no part of the text, but counts as a column. -/
def dropByteOrderMark : List Char → List Char
  | '\ufeff' :: rest => rest
  | cs => cs

def tokens? (cs : List Char) : Option (List Token) := do
  nest? [] [] (← lexemesWithin cs.length cs.length (dropByteOrderMark cs))

end ObjectNavigation.Source
