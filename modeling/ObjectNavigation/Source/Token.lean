import ObjectNavigation.Source.Literal
/-!
Token trees. A bracketed part of the source is one token, and every other token is a name, a
punctuation mark or a literal. Each knows how many characters come before it. A mark is joint if
another one follows it directly, so that the two may form one operator.
-/
namespace ObjectNavigation.Source

inductive Delimiter where
  | paren
  | bracket
  | brace
  deriving DecidableEq, Inhabited

inductive Token where
  | name (offset : Nat) (text : String)
  | mark (offset : Nat) (mark : Char) (joint : Bool)
  | literal (offset : Nat) (text : String) (literal : Literal)
  | group (offset : Nat) (delimiter : Delimiter) (content : List Token)
  deriving Inhabited

namespace Delimiter

def opening : Delimiter → String
  | paren => "("
  | bracket => "["
  | brace => "\x7b "

/-- The closing bracket after a content that is `empty` or not. -/
def closing (empty : Bool) : Delimiter → String
  | paren => ")"
  | bracket => "]"
  | brace => if empty then "\x7d" else " \x7d"

end Delimiter

namespace Token

def offset : Token → Nat
  | name offset _ => offset
  | mark offset _ _ => offset
  | literal offset _ _ => offset
  | group offset _ _ => offset

def listOffset (tokens : List Token) : Nat :=
  (tokens.head?.map offset).getD 0

/-- Tokens in parentheses, which start where they do. -/
def parenthesized (tokens : List Token) : Token :=
  group (listOffset tokens) .paren tokens

mutual

def text : Token → String
  | name _ text => text
  | mark _ c _ => c.toString
  | literal _ text _ => text
  | group _ delimiter content =>
    delimiter.opening ++ listText content ++ delimiter.closing content.isEmpty

/-- The tokens separated by blanks, but for joint marks. -/
def listText : List Token → String
  | [] => ""
  | [token] => token.text
  | mark _ c true :: rest => c.toString ++ listText rest
  | token :: rest => token.text ++ " " ++ listText rest

end

mutual

def size : Token → Nat
  | group _ _ content => 1 + listSize content
  | _ => 1

def listSize : List Token → Nat
  | [] => 0
  | token :: rest => token.size + listSize rest

end

end Token
end ObjectNavigation.Source
