import ShellQuery.Json.Basic
import ShellQuery.Number.Decimal

/-!
# Writing a JSON text

The compact form has no space at all.  The pretty form puts each item on a line of its own, two
spaces further in than the bracket around it, and leaves empty lists and objects on one line.
-/

namespace ShellQuery.Json

/-! ## Leaves -/

/-- The escape of a control character without a short one. -/
def controlEscape (c : Char) : List Char :=
  '\\' :: 'u' :: '0' :: '0' :: Text.hexByte c.toNat

/-- A character inside a string. -/
def writeChar (c : Char) : List Char :=
  match c with
  | '"' => ['\\', '"']
  | '\\' => ['\\', '\\']
  | '\x08' => ['\\', 'b']
  | '\x0c' => ['\\', 'f']
  | '\n' => ['\\', 'n']
  | '\r' => ['\\', 'r']
  | '\t' => ['\\', 't']
  | c => if c.toNat < 0x20 then controlEscape c else [c]

/-- The characters of a string with those escaped that need it. -/
def writeChars : List Char → List Char
  | [] => []
  | c :: r => writeChar c ++ writeChars r

/-- A string between quotes. -/
def writeString (s : String) : List Char :=
  '"' :: (writeChars s.toList ++ ['"'])

/-- A truth value as a word. -/
def writeBool : Bool → List Char
  | true => ['t', 'r', 'u', 'e']
  | false => ['f', 'a', 'l', 's', 'e']

/-! ## The compact form -/

mutual

/-- The text of a value, followed by `rest`. -/
def writeOnto : Json → List Char → List Char
  | null, rest => 'n' :: 'u' :: 'l' :: 'l' :: rest
  | bool b, rest => writeBool b ++ rest
  | int i, rest => Text.intDigits i ++ rest
  | float d, rest => d.documentText ++ rest
  | str s, rest => writeString s ++ rest
  | arr [], rest => '[' :: ']' :: rest
  | arr (item :: items), rest => '[' :: writeOnto item (writeItemsOnto items (']' :: rest))
  | obj [], rest => '{' :: '}' :: rest
  | obj ((name, item) :: fields), rest =>
    '{' :: (writeString name ++ ':' :: writeOnto item (writeFieldsOnto fields ('}' :: rest)))

/-- The further items of a list, each after a comma. -/
def writeItemsOnto : List Json → List Char → List Char
  | [], rest => rest
  | item :: items, rest => ',' :: writeOnto item (writeItemsOnto items rest)

/-- The further properties of an object, each after a comma. -/
def writeFieldsOnto : List (String × Json) → List Char → List Char
  | [], rest => rest
  | (name, item) :: fields, rest =>
    ',' :: (writeString name ++ ':' :: writeOnto item (writeFieldsOnto fields rest))

end

/-- The compact text of a value. -/
def write (v : Json) : List Char :=
  writeOnto v []

/-- The compact text of a value as a string. -/
def compact (v : Json) : String :=
  String.ofList v.write

/-! ## The pretty form -/

/-- A new line, indented to the given level. -/
def newLine (level : Nat) : List Char :=
  '\n' :: List.replicate (2 * level) ' '

mutual

/-- The text of a value whose bracket stands at the given level, followed by `rest`. -/
def prettyOnto (level : Nat) : Json → List Char → List Char
  | arr (item :: items), rest =>
    '[' :: (newLine (level + 1) ++
      prettyOnto (level + 1) item
        (prettyItemsOnto (level + 1) items (newLine level ++ ']' :: rest)))
  | obj ((name, item) :: fields), rest =>
    '{' :: (newLine (level + 1) ++ writeString name ++ ':' :: ' ' ::
      prettyOnto (level + 1) item
        (prettyFieldsOnto (level + 1) fields (newLine level ++ '}' :: rest)))
  | arr [], rest => '[' :: ']' :: rest
  | obj [], rest => '{' :: '}' :: rest
  | null, rest => writeOnto null rest
  | bool b, rest => writeOnto (bool b) rest
  | int i, rest => writeOnto (int i) rest
  | float d, rest => writeOnto (float d) rest
  | str s, rest => writeOnto (str s) rest

/-- The further items of a list, each on its own line. -/
def prettyItemsOnto (level : Nat) : List Json → List Char → List Char
  | [], rest => rest
  | item :: items, rest =>
    ',' :: (newLine level ++ prettyOnto level item (prettyItemsOnto level items rest))

/-- The further properties of an object, each on its own line. -/
def prettyFieldsOnto (level : Nat) : List (String × Json) → List Char → List Char
  | [], rest => rest
  | (name, item) :: fields, rest =>
    ',' :: (newLine level ++ writeString name ++ ':' :: ' ' ::
      prettyOnto level item (prettyFieldsOnto level fields rest))

end

/-- The pretty text of a value. -/
def pretty (v : Json) : String :=
  String.ofList (prettyOnto 0 v [])

end ShellQuery.Json
