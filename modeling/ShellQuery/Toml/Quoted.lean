import ShellQuery.Toml.Basic
import ShellQuery.Text.Integer

/-!
# Quoted texts in TOML

Between double quotes a backslash starts an escape; between single quotes all characters stand for
themselves.  With three quotes on either side a text may run over several lines; a line break right
behind the opening quotes is dropped, and up to two quotes may stand before the closing ones.
-/

namespace ShellQuery.Toml

/-! ## Escapes -/

/-- The character with a code point, unless it is half of a pair or too large. -/
def scalar? (n : Nat) : Option Char :=
  if n < 0xD800 ∨ (0xDFFF < n ∧ n < 0x110000) then some (Char.ofNat n) else none

/-- The character of an escape behind its backslash, and the text behind the escape. -/
def readEscape : List Char → Option (Char × List Char)
  | 'b' :: r => some ('\x08', r)
  | 't' :: r => some ('\t', r)
  | 'n' :: r => some ('\n', r)
  | 'f' :: r => some ('\x0c', r)
  | 'r' :: r => some ('\r', r)
  | '"' :: r => some ('"', r)
  | '\\' :: r => some ('\\', r)
  | 'u' :: r => code 4 r
  | 'U' :: r => code 8 r
  | _ => none
where
  /-- An escape with a fixed number of hexadecimal digits. -/
  code (count : Nat) (r : List Char) : Option (Char × List Char) :=
    if r.length < count then none
    else ((Text.natOfHex? (r.take count)).bind scalar?).map fun c => (c, r.drop count)

/-! ## Texts on one line -/

/-- A text between double quotes up to its closing quote, with `fuel` no smaller than its length. -/
def readBasic : Nat → List Char → Option (List Char × List Char)
  | 0, _ => none
  | _ + 1, [] => none
  | _ + 1, '"' :: r => some ([], r)
  | fuel + 1, '\\' :: r => do
    let (c, r) ← readEscape r
    let (s, rest) ← readBasic fuel r
    some (c :: s, rest)
  | fuel + 1, c :: r =>
    if isPrintable c then (readBasic fuel r).map fun found => (c :: found.1, found.2) else none

/-- A text between single quotes up to its closing quote. -/
def readLiteral : List Char → Option (List Char × List Char)
  | [] => none
  | '\'' :: r => some ([], r)
  | c :: r =>
    if isPrintable c then (readLiteral r).map fun found => (c :: found.1, found.2) else none

/-! ## Texts over several lines -/

/-- Drop a line break right behind the opening quotes. -/
def dropFirstBreak (s : List Char) : List Char :=
  (dropBreak? s).getD s

/-- Drop space and line breaks behind a backslash at the end of a line, with `fuel` no smaller than
    the length of the text. -/
def dropLines : Nat → List Char → List Char
  | 0, s => s
  | fuel + 1, s =>
    match dropBreak? (dropSpace s) with
    | some rest => dropLines fuel rest
    | none => dropSpace s

/-- The closing quotes of a text: at least three, of which all but the last three belong to the
    text. -/
def closing? (quote : Char) (s : List Char) : Option (List Char × List Char) :=
  let count := (s.takeWhile (· = quote)).length
  if count < 3 then none
  else
    let kept := min (count - 3) 2
    some (List.replicate kept quote, s.drop (kept + 3))

/-- A text between three double quotes up to the closing ones, with `fuel` no smaller than its
    length. -/
def readLongBasic : Nat → List Char → Option (List Char × List Char)
  | 0, _ => none
  | _ + 1, [] => none
  | fuel + 1, '\\' :: r =>
    match dropBreak? (dropSpace r) with
    | some rest => readLongBasic fuel (dropLines fuel rest)
    | none => do
      let (c, r) ← readEscape r
      let (s, rest) ← readLongBasic fuel r
      some (c :: s, rest)
  | fuel + 1, c :: r =>
    match closing? '"' (c :: r) with
    | some found => some found
    | none =>
      if isPrintable c || c = '\n' || (c = '\r' && r.head? = some '\n') then
        (readLongBasic fuel r).map fun found => (c :: found.1, found.2)
      else none

/-- A text between three single quotes up to the closing ones. -/
def readLongLiteral : List Char → Option (List Char × List Char)
  | [] => none
  | c :: r =>
    match closing? '\'' (c :: r) with
    | some found => some found
    | none =>
      if isPrintable c || c = '\n' || (c = '\r' && r.head? = some '\n') then
        (readLongLiteral r).map fun found => (c :: found.1, found.2)
      else none

/-! ## Any quoted text -/

/-- A quoted text on one line at the front of a text. -/
def readShortText : List Char → Option (List Char × List Char)
  | '"' :: r => readBasic (r.length + 1) r
  | '\'' :: r => readLiteral r
  | _ => none

/-- A quoted text of any kind at the front of a text. -/
def readText : List Char → Option (List Char × List Char)
  | '"' :: '"' :: '"' :: r =>
    let body := dropFirstBreak r
    readLongBasic (body.length + 1) body
  | '\'' :: '\'' :: '\'' :: r => readLongLiteral (dropFirstBreak r)
  | s => readShortText s

end ShellQuery.Toml
