import ShellQuery.Json.Printer
import ShellQuery.Json.Reader

/-!
# The grammar of JSON texts

`Json.read?` reads a text in two steps, tokens first and values second, both on fuel.  This module
says without any reader what a text means:

- `Lexeme` relates a token to the text that writes it; `CharText`, `StringText` and `NumeralText`
  are its parts for strings and numbers,
- `Spelling` puts lexemes one after the other, with optional space around them,
- `Derives` relates a value, or the inside of a list or an object, to its tokens and counts how
  deep it nests,
- `Denotes` joins the two: the text of one value.

`Proofs/Json/Lexing` and `Proofs/Json/Reading` show that the reader accepts exactly these texts.
-/

namespace ShellQuery.Json

/-! ## Strings -/

/-- How one character of a string is written. -/
inductive CharText : Char → List Char → Prop where
  /-- A character that is no quote, no backslash and no control character stands for itself. -/
  | plain {c : Char} (hquote : c ≠ '"') (hslash : c ≠ '\\') (hprint : 0x20 ≤ c.toNat) :
      CharText c [c]
  /-- A backslash and one letter. -/
  | escape {e c : Char} (he : plainEscape? e = some c) : CharText c ['\\', e]
  /-- The four digits of a code unit that is a character by itself. -/
  | unit {a b c d ch : Char} {u : Nat}
      (hu : hexUnit? a b c d = some u) (hch : unitChar? u = some ch) :
      CharText ch ['\\', 'u', a, b, c, d]
  /-- The digits of two code units that make up one character. -/
  | pair {a b c d a' b' c' d' ch : Char} {high low : Nat}
      (hhigh : hexUnit? a b c d = some high) (hlow : hexUnit? a' b' c' d' = some low)
      (hch : pairChar? high low = some ch) :
      CharText ch ['\\', 'u', a, b, c, d, '\\', 'u', a', b', c', d']

/-- How the characters of a string are written between its quotes. -/
inductive StringText : List Char → List Char → Prop where
  | nil : StringText [] []
  | cons {c : Char} {cs s t : List Char} (hc : CharText c s) (hcs : StringText cs t) :
      StringText (c :: cs) (s ++ t)

/-! ## Numbers -/

/-- A run of decimal digits that is not empty. -/
def IsDigits (s : List Char) : Prop :=
  s ≠ [] ∧ ∀ c ∈ s, Text.isDigit c = true

/-- The digits before the point: a lone zero, or a run that starts with another digit. -/
def IsWhole (s : List Char) : Prop :=
  s = ['0'] ∨ IsDigits s ∧ s.head? ≠ some '0'

/-- How the digits after the point are written, when there are any. -/
inductive FractionText : Option (List Char) → List Char → Prop where
  | absent : FractionText none []
  | present {ds : List Char} (hds : IsDigits ds) : FractionText (some ds) ('.' :: ds)

/-- How a power of ten is written, when there is one. -/
inductive PowerText : Option (Bool × List Char) → List Char → Prop where
  | absent : PowerText none []
  | bare {mark : Char} {ds : List Char} (hmark : mark = 'e' ∨ mark = 'E') (hds : IsDigits ds) :
      PowerText (some (false, ds)) (mark :: ds)
  | plus {mark : Char} {ds : List Char} (hmark : mark = 'e' ∨ mark = 'E') (hds : IsDigits ds) :
      PowerText (some (false, ds)) (mark :: '+' :: ds)
  | minus {mark : Char} {ds : List Char} (hmark : mark = 'e' ∨ mark = 'E') (hds : IsDigits ds) :
      PowerText (some (true, ds)) (mark :: '-' :: ds)

/-- How a number is written. -/
inductive NumeralText : Numeral → List Char → Prop where
  | positive {whole fraction power ft pt} (hwhole : IsWhole whole)
      (hfraction : FractionText fraction ft) (hpower : PowerText power pt) :
      NumeralText ⟨false, whole, fraction, power⟩ (whole ++ (ft ++ pt))
  | negative {whole fraction power ft pt} (hwhole : IsWhole whole)
      (hfraction : FractionText fraction ft) (hpower : PowerText power pt) :
      NumeralText ⟨true, whole, fraction, power⟩ ('-' :: (whole ++ (ft ++ pt)))

/-! ## Lexemes -/

/-- How a token is written.  A number must have a double next to it or be an integer. -/
inductive Lexeme : Token → List Char → Prop where
  | punctuation {c : Char} {t : Token} (hc : punctuation? c = some t) : Lexeme t [c]
  | null : Lexeme (.leaf null) ['n', 'u', 'l', 'l']
  | bool (b : Bool) : Lexeme (.leaf (bool b)) (writeBool b)
  | string {cs s : List Char} (hs : StringText cs s) :
      Lexeme (.leaf (str (String.ofList cs))) ('"' :: (s ++ ['"']))
  | number {n : Numeral} {s : List Char} {v : Json}
      (hn : NumeralText n s) (hv : n.toJson? = some v) : Lexeme (.leaf v) s

/-- A text as a sequence of lexemes, with space before, between and behind them. -/
inductive Spelling : List Token → List Char → Prop where
  | nil : Spelling [] []
  | space {c : Char} {ts : List Token} {s : List Char}
      (hc : isSpace c = true) (hs : Spelling ts s) : Spelling ts (c :: s)
  | token {t : Token} {ts : List Token} {l s : List Char}
      (ht : Lexeme t l) (hs : Spelling ts s) : Spelling (t :: ts) (l ++ s)

/-! ## Values -/

/-- What a sequence of tokens can make up: a value, the items of a list or the members of an
    object. -/
inductive Phrase where
  | value (v : Json)
  | items (vs : List Json)
  | fields (fs : List (String × Json))

/-- The tokens of a phrase that nests at most so deep.  Lists and objects without anything inside
    have rules of their own, so that no comma can be left over. -/
inductive Derives : Nat → Phrase → List Token → Prop where
  | leaf {d : Nat} (v : Json) : Derives d (.value v) [.leaf v]
  | emptyArray {d : Nat} : Derives (d + 1) (.value (arr [])) [.openArray, .closeArray]
  | array {d : Nat} {vs : List Json} {ts : List Token} (h : Derives d (.items vs) ts) :
      Derives (d + 1) (.value (arr vs)) (.openArray :: (ts ++ [.closeArray]))
  | emptyObject {d : Nat} : Derives (d + 1) (.value (obj [])) [.openObject, .closeObject]
  | object {d : Nat} {fs : List (String × Json)} {ts : List Token} (h : Derives d (.fields fs) ts) :
      Derives (d + 1) (.value (obj (Entries.ofList fs))) (.openObject :: (ts ++ [.closeObject]))
  | lastItem {d : Nat} {v : Json} {ts : List Token} (h : Derives d (.value v) ts) :
      Derives d (.items [v]) ts
  | item {d : Nat} {v : Json} {vs : List Json} {ts us : List Token}
      (h : Derives d (.value v) ts) (hs : Derives d (.items vs) us) :
      Derives d (.items (v :: vs)) (ts ++ .comma :: us)
  | lastField {d : Nat} {name : String} {v : Json} {ts : List Token} (h : Derives d (.value v) ts) :
      Derives d (.fields [(name, v)]) (.leaf (str name) :: .colon :: ts)
  | field {d : Nat} {name : String} {v : Json} {fs : List (String × Json)} {ts us : List Token}
      (h : Derives d (.value v) ts) (hs : Derives d (.fields fs) us) :
      Derives d (.fields ((name, v) :: fs)) (.leaf (str name) :: .colon :: (ts ++ .comma :: us))

/-- The text writes one value, nested at most `depth` deep. -/
def Denotes (depth : Nat) (s : List Char) (v : Json) : Prop :=
  ∃ ts, Spelling ts s ∧ Derives depth (.value v) ts

end ShellQuery.Json
