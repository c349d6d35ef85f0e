import ShellQuery.CommandLine.Run

/-!
# The program

The program reads its settings from files and the replies of the backend from standard input, one
JSON value on a line.  What it prints and how it ends is decided by `CommandLine.run`.
-/

namespace ShellQuery.CommandLine

/-! ## Reading -/

/-- What a file holds. -/
def readFile (path : String) : IO Settings.FileText := do
  try
    return .content (← IO.FS.readFile path)
  catch
    | .noFileOrDirectory _ _ _ => return .absent
    | _ => return .unreadable

/-- The file that the arguments name; none is named by arguments that do not fit. -/
def readNamedFile (args : List String) : IO Settings.FileText :=
  match Arguments.read args with
  | .ok { config := some path, .. } => readFile path
  | _ => return .absent

/-- The file that is read when the arguments name none. -/
def readUsualFile : IO Settings.FileText := do
  readFile ((← IO.getEnv "HOME").getD "." ++ "/.mongo-resolver/config.toml")

/-- The JSON values on the remaining lines; other lines are skipped. -/
partial def readReplies (input : IO.FS.Stream) : IO (List Json) := do
  let line ← input.getLine
  if line.isEmpty then return []
  else
    let rest ← readReplies input
    return (Json.read? line.toList).toList ++ rest

/-! ## Printing -/

/-- Print how a run ends. -/
def Ending.print : Ending → IO Unit
  | printed text => IO.print text
  | failed error => IO.eprintln ("Error: " ++ error.message)
  | misused => IO.eprint helpText

/-- A run with the files, the input and the output of the process. -/
def runProcess (args : List String) : IO UInt32 := do
  let file ← readNamedFile args
  let usual ← readUsualFile
  let replies ←
    match Arguments.read args with
    | .ok _ => readReplies (← IO.getStdin)
    | .error _ => pure []
  let (ending, _) := run .anywhere file usual args (Backend.fresh replies)
  ending.print
  return ending.status.toUInt32

end ShellQuery.CommandLine

/-- Run the program. -/
def main (args : List String) : IO UInt32 :=
  ShellQuery.CommandLine.runProcess args
