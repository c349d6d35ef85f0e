/-!
# Blank characters and trimming

A character is *blank* when it has the Unicode property White_Space.  Texts are trimmed of blank
characters on either side, and a text without any other character counts as absent.
-/

namespace ShellQuery.Text

/-! ## The class -/

/-- Code points with the Unicode property White_Space. -/
def blankRanges : List (Nat × Nat) :=
  [(0x09, 0x0D), (0x20, 0x20), (0x85, 0x85), (0xA0, 0xA0), (0x1680, 0x1680), (0x2000, 0x200A),
   (0x2028, 0x2029), (0x202F, 0x202F), (0x205F, 0x205F), (0x3000, 0x3000)]

/-- Whether a code point lies in one of the ranges, both ends included. -/
def inRanges (ranges : List (Nat × Nat)) (n : Nat) : Bool :=
  ranges.any fun r => r.1 ≤ n && n ≤ r.2

/-- Blank characters separate words and are dropped at the ends of a text. -/
def isBlank (c : Char) : Bool :=
  inRanges blankRanges c.toNat

/-! ## Trimming -/

/-- Drop blank characters from the front. -/
def dropBlank (s : List Char) : List Char :=
  s.dropWhile isBlank

/-- Drop blank characters from the back. -/
def dropBlankEnd (s : List Char) : List Char :=
  (s.reverse.dropWhile isBlank).reverse

/-- Drop blank characters at both ends. -/
def trim (s : List Char) : List Char :=
  dropBlankEnd (dropBlank s)

/-- Drop blank characters at both ends of a string. -/
def trimmed (s : String) : String :=
  String.ofList (trim s.toList)

/-- A string of blank characters only. -/
def blankOnly (s : String) : Bool :=
  s.toList.all isBlank

/-- The trimmed string, when anything is left of it. -/
def nonBlank? (s : String) : Option String :=
  if blankOnly s then none else some (trimmed s)

end ShellQuery.Text
