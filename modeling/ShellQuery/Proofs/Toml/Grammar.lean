import ShellQuery.Toml.Reader

/-!
# The grammar of plain TOML documents

A document is *plain* when it consists of headers with one name and of lines that give a name a
text, an integer or a truth value.  This module says without any reader what such a document means:

- `CharText` and `BasicText` tell how characters are written between double quotes, `IsLiteral`
  which texts can stand between single quotes,
- `NameText` and `ValueText` relate a name and a value to the texts that write them,
- `LineEnd` is what may follow on a line: space, a comment and a line break,
- `Spells` relates the lines of a document, in order, to its text.

`Proofs/Toml/Reading` shows that the reader takes such a text for the lines that it spells.
-/

namespace ShellQuery.Toml

/-! ## Quoted texts -/

/-- The letters of the short escapes, each with the character that it stands for. -/
def shortEscapes : List (Char × Char) :=
  [('b', '\x08'), ('t', '\t'), ('n', '\n'), ('f', '\x0c'), ('r', '\r'), ('"', '"'), ('\\', '\\')]

/-- How one character is written between double quotes. -/
inductive CharText : Char → List Char → Prop where
  /-- A character that is no quote, no backslash and no control character stands for itself. -/
  | plain {c : Char} (hquote : c ≠ '"') (hslash : c ≠ '\\') (hprint : isPrintable c = true) :
      CharText c [c]
  /-- A backslash and one letter. -/
  | short {e c : Char} (he : (e, c) ∈ shortEscapes) : CharText c ['\\', e]
  /-- The code point with four hexadecimal digits. -/
  | code4 {c : Char} {ds : List Char} (hlength : ds.length = 4)
      (hds : Text.natOfHex? ds = some c.toNat) : CharText c ('\\' :: 'u' :: ds)
  /-- The code point with eight hexadecimal digits. -/
  | code8 {c : Char} {ds : List Char} (hlength : ds.length = 8)
      (hds : Text.natOfHex? ds = some c.toNat) : CharText c ('\\' :: 'U' :: ds)

/-- How the characters of a text are written between double quotes. -/
inductive BasicText : List Char → List Char → Prop where
  | nil : BasicText [] []
  | cons {c : Char} {cs s t : List Char} (hc : CharText c s) (hcs : BasicText cs t) :
      BasicText (c :: cs) (s ++ t)

/-- A text that can stand between single quotes, where all characters stand for themselves. -/
def IsLiteral (cs : List Char) : Prop :=
  ∀ c ∈ cs, isPrintable c = true ∧ c ≠ '\''

/-! ## Names and values -/

/-- How a name is written: bare, or as a quoted text of either kind. -/
inductive NameText : String → List Char → Prop where
  | bare {cs : List Char} (hne : cs ≠ []) (hcs : ∀ c ∈ cs, isBareChar c = true) :
      NameText (String.ofList cs) cs
  | basic {cs t : List Char} (h : BasicText cs t) :
      NameText (String.ofList cs) ('"' :: (t ++ ['"']))
  | literal {cs : List Char} (h : IsLiteral cs) :
      NameText (String.ofList cs) ('\'' :: (cs ++ ['\'']))

/-- How a run of decimal digits is written: a low line may stand between any two of them. -/
inductive GroupedDigits : List Char → List Char → Prop where
  | single {c : Char} (hc : Text.isDigit c = true) : GroupedDigits [c] [c]
  | digit {c : Char} {ds t : List Char} (hc : Text.isDigit c = true) (h : GroupedDigits ds t) :
      GroupedDigits (c :: ds) (c :: t)
  | group {c : Char} {ds t : List Char} (hc : Text.isDigit c = true) (h : GroupedDigits ds t) :
      GroupedDigits (c :: ds) (c :: '_' :: t)

/-- How a natural number is written: without zeros in front, behind the sign `+` or without one. -/
inductive NaturalText : Nat → List Char → Prop where
  | bare {n : Nat} {t : List Char} (h : GroupedDigits (Text.natDigits n) t) : NaturalText n t
  | plus {n : Nat} {t : List Char} (h : GroupedDigits (Text.natDigits n) t) :
      NaturalText n ('+' :: t)

/-- How a value of a plain document is written.  Its integers are not negative and have 64 bits with
    a sign. -/
inductive ValueText : Toml → List Char → Prop where
  | basic {cs t : List Char} (h : BasicText cs t) :
      ValueText (string (String.ofList cs)) ('"' :: (t ++ ['"']))
  | literal {cs : List Char} (h : IsLiteral cs) :
      ValueText (string (String.ofList cs)) ('\'' :: (cs ++ ['\'']))
  | integer {n : Nat} {t : List Char} (hn : n < 9223372036854775808) (h : NaturalText n t) :
      ValueText (integer n) t
  | true : ValueText (boolean true) ['t', 'r', 'u', 'e']
  | false : ValueText (boolean false) ['f', 'a', 'l', 's', 'e']

/-! ## Lines -/

/-- Space within a line, possibly none. -/
def IsGap (s : List Char) : Prop :=
  ∀ c ∈ s, isSpace c = true

/-- A line break in front of `rest`, or the end of the text. -/
inductive LineBreak : List Char → List Char → Prop where
  | stop : LineBreak [] []
  | feed (rest : List Char) : LineBreak rest ('\n' :: rest)
  | carriage (rest : List Char) : LineBreak rest ('\r' :: '\n' :: rest)

/-- What follows on a line in front of `rest`: space, possibly a comment, and the line break. -/
inductive LineEnd : List Char → List Char → Prop where
  | bare {rest s : List Char} (h : LineBreak rest s) : LineEnd rest s
  | comment {rest s cs : List Char} (hcs : ∀ c ∈ cs, isPrintable c = true)
      (h : LineBreak rest s) : LineEnd rest ('#' :: (cs ++ s))
  | space {c : Char} {rest s : List Char} (hc : isSpace c = true) (h : LineEnd rest s) :
      LineEnd rest (c :: s)

/-- A line that says something: it opens a table, or gives a name of the open table a value. -/
inductive Line where
  | header (name : String)
  | assignment (name : String) (value : Toml)

/-- How a line is written, without the space in front of it and its end. -/
inductive LineText : Line → List Char → Prop where
  | header {name : String} {t gap gap' : List Char} (hname : NameText name t) (hgap : IsGap gap)
      (hgap' : IsGap gap') : LineText (.header name) ('[' :: (gap ++ (t ++ (gap' ++ [']']))))
  | assignment {name : String} {value : Toml} {t u gap gap' : List Char} (hname : NameText name t)
      (hvalue : ValueText value u) (hgap : IsGap gap) (hgap' : IsGap gap') :
      LineText (.assignment name value) (t ++ (gap ++ '=' :: (gap' ++ u)))

/-! ## Documents -/

/-- A text as a sequence of lines, with blank lines and comments between them. -/
inductive Spells : List Line → List Char → Prop where
  | nil : Spells [] []
  | blank {lines : List Line} {rest s : List Char} (hend : LineEnd rest s)
      (h : Spells lines rest) : Spells lines s
  | line {l : Line} {lines : List Line} {indent t e rest : List Char} (hindent : IsGap indent)
      (hl : LineText l t) (hend : LineEnd rest e) (h : Spells lines rest) :
      Spells (l :: lines) (indent ++ (t ++ e))

/-- A table with its name and its entries. -/
abbrev Section := String × Entries Toml

/-- The lines of a table: its header, and one line for each entry. -/
def Section.lines (s : Section) : List Line :=
  .header s.1 :: s.2.map fun e => .assignment e.1 e.2

/-- The document has the given tables, one after the other; no name occurs twice in a table, and no
    two tables have the same name.  A byte order mark may stand at the front. -/
structure IsDocument (sections : List Section) (s : List Char) : Prop where
  text : ∃ body, Spells (sections.flatMap Section.lines) body ∧ (s = body ∨ s = '\uFEFF' :: body)
  nodup : (Entries.keys sections).Nodup
  nodup_entries : ∀ e ∈ sections, (Entries.keys e.2).Nodup

end ShellQuery.Toml
