import ObjectNavigation.Text.CharRanges
import ObjectNavigation.Text.Quoted
/-!
Blanks, comments and documentation. Comments are skipped like blanks. A comment that opens with a
third slash, a second star or an exclamation mark is documentation, which stands for an attribute
that holds its text.
-/
namespace ObjectNavigation.Source

/-- White space, the marks of writing direction among it. -/
def blankRanges : CharRanges := [
  (0x9, 0xd), (0x20, 0x20), (0x85, 0x85), (0xa0, 0xa0), (0x1680, 0x1680), (0x2000, 0x200a),
  (0x200e, 0x200f), (0x2028, 0x2029), (0x202f, 0x202f), (0x205f, 0x205f), (0x3000, 0x3000)]

def isBlank (c : Char) : Bool :=
  blankRanges.contains c

/-- The characters up to the end of the line, and what follows; a carriage return before the line
feed belongs to neither. -/
def line : List Char → List Char × List Char
  | [] => ([], [])
  | '\n' :: rest => ([], '\n' :: rest)
  | '\r' :: '\n' :: rest => ([], '\n' :: rest)
  | c :: rest => ((c :: (line rest).1), (line rest).2)

/-- The text of a block comment after `depth` openings up to the closing of the outermost one. -/
def block? (depth : Nat) : List Char → Option (List Char × List Char)
  | [] => none
  | '/' :: '*' :: rest => (block? (depth + 1) rest).map fun (cs, rest) => ('/' :: '*' :: cs, rest)
  | '*' :: '/' :: rest =>
    if depth ≤ 1 then some ([], rest)
    else (block? (depth - 1) rest).map fun (cs, rest) => ('*' :: '/' :: cs, rest)
  | c :: rest => (block? depth rest).map fun (cs, rest) => (c :: cs, rest)

def afterComment? : List Char → Option (List Char)
  | '/' :: '/' :: '/' :: '/' :: rest => some (line rest).2
  | '/' :: '/' :: '/' :: _ => none
  | '/' :: '/' :: '!' :: _ => none
  | '/' :: '/' :: rest => some (line rest).2
  | '/' :: '*' :: '*' :: '/' :: rest => some rest
  | '/' :: '*' :: '*' :: '*' :: rest => (block? 1 ('*' :: '*' :: rest)).map Prod.snd
  | '/' :: '*' :: '*' :: _ => none
  | '/' :: '*' :: '!' :: _ => none
  | '/' :: '*' :: rest => (block? 1 rest).map Prod.snd
  | _ => none

/-- Documentation: whether it is about what encloses it, its text, and what follows. -/
def documentation? : List Char → Option (Bool × List Char × List Char)
  | '/' :: '/' :: '!' :: rest => some (true, line rest)
  | '/' :: '*' :: '!' :: rest => (block? 1 rest).map fun found => (true, found)
  | '/' :: '/' :: '/' :: '/' :: _ => none
  | '/' :: '/' :: '/' :: rest => some (false, line rest)
  | '/' :: '*' :: '*' :: '*' :: _ => none
  | '/' :: '*' :: '*' :: rest => (block? 1 rest).map fun found => (false, found)
  | _ => none

/-- Whether every carriage return is part of a line end. -/
def wholeLines : List Char → Bool
  | [] => true
  | '\r' :: '\n' :: rest => wholeLines rest
  | '\r' :: _ => false
  | _ :: rest => wholeLines rest

/-- The literal for the text of documentation: as quoted elsewhere, except that the character with
code zero is told apart from a longer octal number. -/
def documentationText : List Char → List Char
  | [] => []
  | '\x00' :: c :: rest =>
    (if '0' ≤ c ∧ c ≤ '7' then ['\\', 'x', '0', '0'] else ['\\', '0']) ++
      documentationText (c :: rest)
  | c :: rest => Quoted.char c ++ documentationText rest

/-- Drops blanks and comments; every round takes one of them. -/
def skipBlanksWithin : Nat → List Char → List Char
  | rounds + 1, c :: rest =>
    match if c = '/' then afterComment? (c :: rest) else if isBlank c then some rest else none with
    | some rest => skipBlanksWithin rounds rest
    | none => c :: rest
  | _, cs => cs

def skipBlanks (cs : List Char) : List Char :=
  skipBlanksWithin cs.length cs

end ObjectNavigation.Source
