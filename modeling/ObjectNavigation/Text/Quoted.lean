import ObjectNavigation.Text.Printable
/-!
Quoted text. Inside double quotes a character stands for itself unless it would be misread or
could not be seen: the quote, the backslash and the usual control characters have a letter after
a backslash, anything else that is unprintable or joins its neighbour is written by code point.
-/
namespace ObjectNavigation.Quoted

/-- The letter that follows a backslash in place of the character. -/
def letter? : Char → Option Char
  | '\x00' => some '0'
  | '\t' => some 't'
  | '\r' => some 'r'
  | '\n' => some 'n'
  | '\\' => some '\\'
  | '"' => some '"'
  | _ => none

/-- `\u`, then the code point in braces, in hexadecimal without leading zeros. -/
def codePoint (c : Char) : List Char :=
  '\\' :: 'u' :: '{' :: (Nat.toDigits 16 c.toNat ++ ['}'])

def char (c : Char) : List Char :=
  match letter? c with
  | some l => ['\\', l]
  | none => if isPrintable c && !isGraphemeExtend c then [c] else codePoint c

def chars (cs : List Char) : List Char :=
  '"' :: (cs.flatMap char ++ ['"'])

end Quoted

def quoted (s : String) : String :=
  String.ofList (Quoted.chars s.toList)

end ObjectNavigation
