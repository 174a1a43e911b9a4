import ObjectNavigation.Source.Escape
import ObjectNavigation.Source.Literal
/-!
Number literals. A name may follow a number directly, as its suffix. Where a number ends and what
it stands for are asked apart: an exponent without digits, for instance, belongs to the literal
but only as a suffix, and the literal is then a whole number unless it has a point.
-/
namespace ObjectNavigation.Source

def isDigitPlace (c : Char) : Bool :=
  c.isDigit || c == '_'

def isExponentMark (c : Char) : Bool :=
  c == 'e' || c == 'E'

/-! ### Where a number ends -/

def afterSuffix? : List Char → Option (List Char)
  | [] => some []
  | c :: rest =>
    if isIdentStart c then some (rest.dropWhile isIdentContinue)
    else if isIdentContinue c then none
    else some (c :: rest)

def dropSign : List Char → List Char
  | '+' :: rest => rest
  | '-' :: rest => rest
  | cs => cs

/-- The digits of an exponent, from its sign on, and what follows. -/
def exponent? (cs : List Char) : Option (List Char × List Char) :=
  let cs := dropSign (cs.dropWhile (· == '_'))
  let digits := cs.takeWhile isDigitPlace
  if digits.any Char.isDigit then some (digits, cs.drop digits.length) else none

def afterExponent : List Char → List Char
  | [] => []
  | c :: rest =>
    if isExponentMark c then (exponent? rest).elim (c :: rest) Prod.snd else c :: rest

/-- What follows a number with a point or an exponent. A point before a name or another point
does not belong to the number. -/
def afterFraction? (cs : List Char) : Option (List Char) :=
  if cs.head?.any Char.isDigit then
    match cs.dropWhile isDigitPlace with
    | '.' :: rest =>
      if rest.head?.any fun c => c = '.' || isIdentStart c then none
      else some (afterExponent (rest.dropWhile isDigitPlace))
    | c :: rest => if isExponentMark c then (exponent? rest).map Prod.snd else none
    | [] => none
  else none

/-- The base of a whole number and the text of its digits. -/
def base : List Char → Nat × List Char
  | '0' :: 'x' :: rest => (16, rest)
  | '0' :: 'o' :: rest => (8, rest)
  | '0' :: 'b' :: rest => (2, rest)
  | cs => (10, cs)

/-- What follows the digits of a whole number. A letter that is no digit ends them, but a digit
that is too large is an error. -/
def afterDigits? (base : Nat) (empty : Bool) : List Char → Option (List Char)
  | [] => if empty then none else some []
  | c :: rest =>
    if c = '_' then
      if empty && base = 10 then none else afterDigits? base empty rest
    else
      match hexDigit? c with
      | some digit =>
        if digit < base then afterDigits? base false rest
        else if c.isDigit || empty then none
        else some (c :: rest)
      | none => if empty then none else some (c :: rest)

def afterNumber? (cs : List Char) : Option (List Char) :=
  ((afterFraction? cs).bind afterSuffix?).or
    (let (base, digits) := base cs
     (afterDigits? base true digits).bind afterSuffix?)

/-! ### What it stands for -/

def isName : List Char → Bool
  | [] => false
  | c :: rest => isIdentStart c && rest.all isIdentContinue

/-- Whether what follows an `e` makes it an exponent: digits with nothing but a name after them, or
a sign. -/
def isExponent (seen : Bool) : List Char → Bool
  | [] => seen
  | c :: rest =>
    if c = '_' then isExponent seen rest
    else if c.isDigit then isExponent true rest
    else c == '+' || c == '-' || seen && isName (c :: rest)

/-- The value of the digits of a whole number, and the suffix. -/
def wholeFrom? (base value : Nat) : List Char → Option (Nat × List Char)
  | [] => some (value, [])
  | c :: rest =>
    if c = '_' then wholeFrom? base value rest
    else if base = 10 && (c = '.' || isExponentMark c && isExponent false rest) then none
    else
      match hexDigit? c with
      | some digit =>
        if digit < base then wholeFrom? base (base * value + digit) rest
        else some (value, c :: rest)
      | none => some (value, c :: rest)

def whole? (cs : List Char) : Option (Nat × List Char) :=
  let (base, digits) := base cs
  wholeFrom? base 0 digits

def digitsValue (cs : List Char) : Nat :=
  (cs.filter Char.isDigit).foldl (fun value c => 10 * value + (c.toNat - '0'.toNat)) 0

def exponentValue : List Char → Int
  | [] => 0
  | c :: rest =>
    match if isExponentMark c then exponent? rest else none with
    | none => 0
    | some (digits, _) =>
      if (rest.dropWhile (· == '_')).head? = some '-' then -digitsValue digits
      else digitsValue digits

def fraction (cs : List Char) : Literal :=
  let whole := cs.takeWhile isDigitPlace
  let (places, rest) := match cs.drop whole.length with
    | '.' :: rest => (rest.takeWhile isDigitPlace, rest.dropWhile isDigitPlace)
    | rest => ([], rest)
  .float (digitsValue (whole ++ places)) (exponentValue rest - places.countP Char.isDigit)

def Literal.ofNumber (cs : List Char) : Literal :=
  match whole? cs with
  | some (n, _) => .int n
  | none => fraction cs

/-- The number of a position: whole, without a suffix, and of 32 bits. -/
def index? (cs : List Char) : Option Nat :=
  match afterNumber? cs, whole? cs with
  | some [], some (n, []) => if n < Nat.pow 2 32 then some n else none
  | _, _ => none

end ObjectNavigation.Source
