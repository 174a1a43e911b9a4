import ObjectNavigation.Source.Token
/-!
Reading tokens. A parser walks along a list of tokens and keeps a clean copy of what it has read,
in which every operator is of one piece and joint to nothing else; the text of a piece of syntax
is the text of its copy. What a parser refuses is a syntax error, without further detail.
-/
namespace ObjectNavigation.Source

def reservedWords : List String := [
  "_", "abstract", "as", "async", "await", "become", "box", "break", "const", "continue", "crate",
  "do", "dyn", "else", "enum", "extern", "false", "final", "fn", "for", "if", "impl", "in", "let",
  "loop", "macro", "match", "mod", "move", "mut", "override", "priv", "pub", "ref", "return",
  "Self", "self", "static", "struct", "super", "trait", "true", "try", "type", "typeof", "unsafe",
  "unsized", "use", "virtual", "where", "while", "yield"]

/-! ### Looking ahead -/

/-- The offset of an operator, all marks of which but the last are joint, and what follows. -/
def takeMarks? : List Char → List Token → Option (Nat × List Token)
  | [c], .mark offset m _ :: rest => if m = c then some (offset, rest) else none
  | c :: cs, .mark offset m joint :: rest =>
    if m = c && joint then (takeMarks? cs rest).map fun found => (offset, found.2) else none
  | _, _ => none

namespace Next

def mark (text : String) (tokens : List Token) : Bool :=
  (takeMarks? text.toList tokens).isSome

def word (text : String) : List Token → Bool
  | .name _ found :: _ => found == text
  | _ => false

def anyWord : List Token → Bool
  | .name _ _ :: _ => true
  | _ => false

def name : List Token → Bool
  | .name _ found :: _ => !reservedWords.contains found
  | _ => false

def group (delimiter : Delimiter) : List Token → Bool
  | .group _ found _ :: _ => found == delimiter
  | _ => false

def lifetime : List Token → Bool
  | .mark _ '\'' true :: .name _ _ :: _ => true
  | _ => false

def string : List Token → Bool
  | .literal _ text (.text _) :: _ => !text.startsWith "'"
  | _ => false

/-- Whether a literal comes next; a number may have a sign. -/
def literal : List Token → Bool
  | .literal _ _ _ :: _ => true
  | .name _ found :: _ => found == "true" || found == "false"
  | .mark _ '-' _ :: .literal _ _ value :: _ =>
    match value with
    | .int _ => true
    | .float _ _ => true
    | _ => false
  | _ => false

end Next

/-- What comes after the next token; a lifetime counts as one. -/
def skipToken : List Token → List Token
  | .mark _ '\'' _ :: .name _ _ :: rest => rest
  | _ :: rest => rest
  | [] => []

/-! ### Parsers -/

/-- The tokens to come, and the copy of those read, the last one first. -/
structure Cursor where
  rest : List Token
  printed : List Token := []

/-- A parser takes tokens from the front: what it leaves is the end of what was ahead. -/
structure TokenParser (α : Type) where
  run : Cursor → Option (α × Cursor)
  suffix {a : α} {c after : Cursor} : run c = some (a, after) → after.rest <:+ c.rest

theorem takeMarks?_suffix {cs : List Char} {tokens rest : List Token} {offset : Nat}
    (h : takeMarks? cs tokens = some (offset, rest)) : rest <:+ tokens := by
  induction cs, tokens using takeMarks?.induct generalizing offset rest with
  | case1 c offset' joint tokens =>
    rw [takeMarks?, if_pos rfl] at h
    cases h
    exact List.suffix_cons _ _
  | case2 c offset' m joint tokens hm =>
    rw [takeMarks?, if_neg hm] at h
    cases h
  | case3 c cs offset' m joint tokens _ hm ih =>
    rw [takeMarks?, if_pos hm] at h
    · obtain ⟨found, hfound, hrest⟩ := Option.map_eq_some_iff.1 h
      cases hrest
      exact (ih hfound).trans (List.suffix_cons _ _)
    · assumption
  | case4 c cs offset' m joint tokens _ hm =>
    rw [takeMarks?, if_neg hm] at h
    · cases h
    · assumption
  | case5 cs tokens _ _ =>
    rw [takeMarks?] at h
    · cases h
    · assumption
    · assumption

namespace TokenParser

variable {α σ : Type}

instance : Monad TokenParser where
  pure a := ⟨fun c => some (a, c), fun h => by cases h; exact List.suffix_refl _⟩
  bind parser next :=
    { run c := (parser.run c).bind fun (a, between) => (next a).run between
      suffix h := by
        obtain ⟨⟨a, between⟩, hparser, hnext⟩ := Option.bind_eq_some_iff.1 h
        exact ((next a).suffix hnext).trans (parser.suffix hparser) }

instance : Alternative TokenParser where
  failure := ⟨fun _ => none, nofun⟩
  orElse parser other :=
    { run c := (parser.run c).or ((other ()).run c)
      suffix h := by
        rcases Option.or_eq_some_iff.1 h with h | ⟨_, h⟩
        · exact parser.suffix h
        · exact (other ()).suffix h }

def cursor : TokenParser Cursor :=
  ⟨fun c => some (c, c), fun h => by cases h; exact List.suffix_refl _⟩

def ahead : TokenParser (List Token) :=
  return (← cursor).rest

def second : TokenParser (List Token) :=
  return skipToken (← ahead)

def third : TokenParser (List Token) :=
  return skipToken (← second)

def require (condition : Bool) : TokenParser Unit :=
  if condition then pure () else failure

def atEnd : TokenParser Bool :=
  return (← ahead).isEmpty

/-- The result of a parser and where it ends, without going there. -/
def attempt (parser : TokenParser α) : TokenParser (Option (α × Cursor)) :=
  return parser.run (← cursor)

def perhaps (parser : TokenParser α) : TokenParser (Option α) where
  run c :=
    match parser.run c with
    | some (a, after) => some (some a, after)
    | none => some (none, c)
  suffix {_ c _} h := by
    cases hparser : parser.run c with
    | none => rw [hparser] at h; cases h; exact List.suffix_refl _
    | some found => rw [hparser] at h; cases h; exact parser.suffix hparser

def here : TokenParser Nat :=
  return (← cursor).printed.length

/-- The copy of what has been read from a place on. -/
def since (start : Nat) : TokenParser (List Token) := do
  let printed := (← cursor).printed
  return (printed.take (printed.length - start)).reverse

/-- Puts other tokens in place of those that have been read from a place on. -/
def reprint (start : Nat) (tokens : List Token) : TokenParser Unit where
  run c :=
    let kept := c.printed.drop (c.printed.length - start)
    some ((), { c with printed := tokens.reverse ++ kept })
  suffix h := by cases h; exact List.suffix_refl _

def unprint (start : Nat) : TokenParser Unit :=
  reprint start []

/-- Puts what has been read from a place on as it is in the source, where `before` is what was
ahead at that place. -/
def respell (start : Nat) (before : List Token) : TokenParser Unit := do
  reprint start (before.take (before.length - (← ahead).length))

def token : TokenParser Token where
  run c :=
    match c with
    | ⟨token :: rest, printed⟩ => some (token, ⟨rest, token :: printed⟩)
    | ⟨[], _⟩ => none
  suffix {_ c _} h := by
    match c, h with
    | ⟨token :: rest, printed⟩, rfl => exact List.suffix_cons _ _

/-- The marks of an operator, joint but for the last. -/
def marks (offset : Nat) : List Char → List Token
  | [] => []
  | [c] => [.mark offset c false]
  | c :: rest => .mark offset c true :: marks (offset + 1) rest

/-- Reads an operator, and returns its offset. -/
def mark (text : String) : TokenParser Nat where
  run c :=
    (takeMarks? text.toList c.rest).map fun (offset, rest) =>
      (offset, ⟨rest, (marks offset text.toList).reverse ++ c.printed⟩)
  suffix h := by
    obtain ⟨⟨offset, rest⟩, htake, hafter⟩ := Option.map_eq_some_iff.1 h
    cases hafter
    exact takeMarks?_suffix htake

def mark? (text : String) : TokenParser Bool := do
  if Next.mark text (← ahead) then
    discard <| mark text
    return true
  else return false

def anyName : TokenParser String := do
  match ← token with
  | .name _ text => return text
  | _ => failure

def name : TokenParser String := do
  require (Next.name (← ahead))
  anyName

def word (text : String) : TokenParser Unit := do
  require (Next.word text (← ahead))
  discard token

def word? (text : String) : TokenParser Bool := do
  if Next.word text (← ahead) then
    discard token
    return true
  else return false

def lifetime : TokenParser Unit := do
  require (Next.lifetime (← ahead))
  discard token
  discard token

def lifetime? : TokenParser Bool := do
  if Next.lifetime (← ahead) then
    lifetime
    return true
  else return false

def literal : TokenParser Unit := do
  require (Next.literal (← ahead))
  discard <| mark? "-"
  discard token

/-- Reads a group whose content the parser reads to its end. -/
def group (delimiter : Delimiter) (content : TokenParser α) : TokenParser α where
  run c :=
    match c with
    | ⟨.group offset found tokens :: rest, printed⟩ =>
      if found = delimiter then
        match content.run ⟨tokens, []⟩ with
        | some (a, ⟨[], copy⟩) =>
          some (a, ⟨rest, .group offset delimiter copy.reverse :: printed⟩)
        | _ => none
      else none
    | _ => none
  suffix h := by
    split at h
    · split at h
      · split at h
        · cases h
          exact List.suffix_cons _ _
        · cases h
      · cases h
    · cases h

def anyGroup : TokenParser Delimiter := do
  match ← token with
  | .group _ delimiter _ => return delimiter
  | _ => failure

/-! ### Repetition -/

/-- At most `rounds` rounds of `step`, until it gives a result. -/
def iterate (step : σ → TokenParser (σ ⊕ α)) : Nat → σ → TokenParser α
  | 0, _ => failure
  | rounds + 1, s => do
    match ← step s with
    | .inl s => iterate step rounds s
    | .inr a => return a

/-- Repeats `step` until it gives a result. Every other round has to read a token. -/
def untilDone (step : σ → TokenParser (σ ⊕ α)) (s : σ) : TokenParser α := do
  iterate step ((← ahead).length + 1) s

def whileAhead (condition : List Token → Bool) (body : TokenParser Unit) : TokenParser Unit :=
  untilDone (fun _ => do
    if condition (← ahead) then
      body
      return .inl ()
    else return .inr ()) ()

/-- An item with the comma after it, where `found` are those before, the last one first. The result
is at the right at the end. -/
def oneItem (item : TokenParser α) (found : List α) : TokenParser (List α ⊕ List α) := do
  if ← atEnd then return .inr found.reverse
  let found := (← item) :: found
  if ← atEnd then return .inr found.reverse
  discard <| mark ","
  return .inl found

/-- Items up to the end with a comma after each; the last one may be missing. -/
def items (item : TokenParser α) : TokenParser (List α) :=
  untilDone (oneItem item) []

/-- Items with a plus between them, the last of which may be followed by one. -/
def joined (again : List Token → Bool) (item : TokenParser α) : TokenParser (List α) :=
  untilDone (fun found => do
    let found := (← item) :: found
    if (← mark? "+") && again (← ahead) then return .inl found
    else return .inr found.reverse) []

end TokenParser
end ObjectNavigation.Source
