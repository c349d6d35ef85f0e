import ShellQuery.Query.Call
import ShellQuery.Query.ScriptText
import ShellQuery.Text.Slice

/-!
# Reading with byte positions

The readers of queries, tails and scripts once more, here with the byte positions at which they cut
a text.  Each cut is a slice that may not exist, each difference of positions may be negative, and
each loop may run out of rounds.  In all these cases a reader has no outcome at all, which is not
the same as an error that it reports.
-/

namespace ShellQuery.Sliced

open Text

/-- The outcome of a reader that reports errors, none where a slice does not exist. -/
abbrev Checked (ε : Type) : Type → Type :=
  ExceptT ε Option

/-- An outcome that needs no slice. -/
def plain {ε α : Type} (outcome : Except ε α) : Checked ε α :=
  ExceptT.mk (some outcome)

/-- The difference of two positions, none when it is negative. -/
def difference? (i j : Nat) : Option Nat :=
  if j ≤ i then some (i - j) else none

/-- The text behind a word of lower-case letters that stands at the front in any case; none inside
    when it does not.  The slice for the comparison may be missing, the other one must not be. -/
def stripWord? (word s : List Char) : Option (Option (List Char)) :=
  match slice? s 0 (byteLength word) with
  | some first =>
    if first.map Char.toLower = word then (sliceFrom? s (byteLength word)).map some else some none
  | none => some none

/-! ## Queries -/

/-- The text without the root `db.` in front. -/
def dropRoot? (s : List Char) : Option (List Char) :=
  (stripWord? ['d', 'b', '.'] s).map fun behind => behind.getD s

/-- Read the text of a query. -/
def parse (text : String) : Checked Error Query := do
  let trimmed := trim text.toList
  let body ← dropRoot? trimmed
  match findByte? (· = '(') body with
  | none => throw (Malformed.error .noParenthesis)
  | some opening =>
    let head ← slice? body 0 opening
    let names := Query.headNames head
    let target := Query.Target.ofNames names
    plain (target.check.mapError Malformed.error)
    let database := target.database.map String.ofList
    if trimmed.getLast? = some ';' then
      return .script ⟨database, target.collectionName, String.ofList trimmed⟩
    else
      let operation ← plain (Query.operationOf names target)
      let close ← plain ((Bracket.matchingClose body opening).mapError Malformed.error)
      let block ← slice? body (opening + 1) close
      let parameters ← plain (Query.readParameters block)
      let tail ← sliceFrom? body (close + 1)
      return .call ⟨database, target.collectionName, operation, parameters,
        String.ofList (trim tail)⟩

/-! ## Chained calls -/

/-- The chained call behind a dot that ends at `position`, and the position behind the call. -/
def readCall (tail : List Char) (position : Nat) : Checked Malformed (ChainedCall × Nat) := do
  let behind ← sliceFrom? tail position
  match findByte? (· = '(') behind with
  | none => throw (.noArgument (String.ofList behind))
  | some offset =>
    let opening := position + offset
    let before ← slice? tail position opening
    let name := trim before
    if name.isEmpty || !name.all Chain.isNameChar then throw (.badName (String.ofList name))
    else
      let close ← plain (Bracket.matchingClose tail opening)
      let inside ← slice? tail (opening + 1) close
      return (⟨String.ofList name, String.ofList (trim inside)⟩, close + 1)

/-- One round of splitting a tail at `position`: the next call and the position behind it, none at
    the end of the tail. -/
def round (tail : List Char) (position : Nat) : Checked Malformed (Option (ChainedCall × Nat)) := do
  let rest ← sliceFrom? tail position
  let trimmed := dropBlank rest
  if trimmed.isEmpty then return none
  else
    let skipped ← difference? (byteLength rest) (byteLength trimmed)
    if trimmed.head? = some '.' then
      let call ← readCall tail (position + skipped + 1)
      return some call
    else throw (.noDot (String.ofList trimmed))

/-- The chained calls from a position on, in at most `fuel` rounds. -/
def splitFrom (tail : List Char) : Nat → Nat → Checked Malformed (List ChainedCall)
  | 0, _ => ExceptT.mk none
  | fuel + 1, position => do
    match ← round tail position with
    | none => return []
    | some (call, next) =>
      let calls ← splitFrom tail fuel next
      return call :: calls

/-- The chained calls of a tail. -/
def split (tail : List Char) : Checked Malformed (List ChainedCall) :=
  splitFrom tail (tail.length + 1) 0

/-- The modifiers of a tail of chained calls. -/
def ofTail (tail : List Char) : Checked Malformed Modifiers := do
  let calls ← split tail
  plain (Modifiers.ofCalls calls)

/-! ## Scripts -/

/-- A value that has to be there for a text to be a literal; that it is not one is the only error. -/
def present {α : Type} : Option α → Checked Unit α
  | some a => plain (.ok a)
  | none => throw ()

/-- The length of the literal at the front of a text, and its id. -/
def matchLiteral (input : List Char) : Checked Unit (Nat × List Char) := do
  let s ← present (ScriptText.dropMark '{' input)
  let s ← present (ScriptText.dropMark '"' s)
  let behind ← stripWord? ['$', 'o', 'i', 'd'] s
  let s ← present (behind.map dropBlank)
  let s ← present (ScriptText.dropMark '"' s)
  let s ← present (ScriptText.dropMark ':' s)
  let s ← present (ScriptText.dropMark '"' s)
  let stop := (findByte? (fun c => !ScriptText.isIdChar c) s).getD (byteLength s)
  if stop = 0 then throw ()
  else
    let id ← slice? s 0 stop
    let rest ← sliceFrom? s stop
    let rest ← present (ScriptText.dropMark '"' (dropBlank rest))
    if rest.head? = some '}' then
      let length ← difference? (byteLength input) (byteLength rest.tail)
      return (length, id.map Char.toLower)
    else throw ()

/-- One round of replacing: the text up to the next brace, the brace or the call for the literal that
    starts with it, and the text behind; none when there is no further brace. -/
def replaceNext (s : List Char) : Option (Option (List Char × List Char)) :=
  match findByte? (· = '{') s with
  | none => some none
  | some position => do
    let before ← slice? s 0 position
    let candidate ← sliceFrom? s position
    match ← (matchLiteral candidate).run with
    | .ok (length, id) =>
      let rest ← sliceFrom? candidate length
      return some (before ++ ScriptText.idCall id, rest)
    | .error () =>
      let rest ← sliceFrom? candidate 1
      return some (before ++ ['{'], rest)

/-- Replace the literals of a text in at most `fuel` rounds. -/
def replaceFrom : Nat → List Char → Option (List Char)
  | 0, _ => none
  | fuel + 1, s => do
    match ← replaceNext s with
    | none => return s
    | some (written, rest) =>
      let more ← replaceFrom fuel rest
      return written ++ more

/-- Replace each literal of a text by a call. -/
def replaceIds (s : List Char) : Option (List Char) :=
  replaceFrom (s.length + 1) s

end ShellQuery.Sliced
