import ShellQuery.CommandLine.Arguments
import ShellQuery.Controller.Basic
import ShellQuery.Settings.Reader

/-!
# A run of the program

A run reads its arguments, loads settings, opens a controller for one query and prints the result.
What lies outside is given to it: the files, the server and the backend.
-/

namespace ShellQuery.CommandLine

/-- The name of the program. -/
def programName : String := "mongo-resolver"

/-- The version of the program. -/
def programVersion : String := "0.1.0"

/-! ## Settings -/

/-- The values of arguments take the place of what was loaded. -/
def override (a : Arguments) (s : Settings) : Settings :=
  { s with
    persistence :=
      { s.persistence with
        url := a.url.orElse fun _ => s.persistence.url
        database := a.database.orElse fun _ => s.persistence.database }
    level := if a.verbose then .debug else s.level }

/-- The settings of the file that the arguments name, or of the usual file, which may be missing. -/
def loadFile (file usual : Settings.FileText) (a : Arguments) : Except Error Settings :=
  match a.config, usual with
  | some path, _ => Settings.ofFile path file
  | none, .absent => .ok .default
  | none, text => Settings.ofFile "" text

/-- The settings of a run: those of a file with the values of arguments, checked. -/
def loadSettings (file usual : Settings.FileText) (a : Arguments) : Except Error Settings := do
  let s ← loadFile file usual a
  (override a s).validated

/-! ## The query -/

/-- Whether a query is a call that writes. -/
def isWrite (text : String) : Bool :=
  match Query.parse text with
  | .ok (.call call) => call.operation.isWrite
  | _ => false

/-- A summary as a result. -/
def summaryJson : Option WriteSummary → Json
  | some s => s.toJson
  | none => .null

/-- The result of a query, as a summary when it writes or the arguments ask for one. -/
def execute (c : Controller) (asSummary : Bool) (text : String) (b : Backend) :
    Except Error Json × Backend :=
  if asSummary || isWrite text then
    let (outcome, b) := c.update text b
    (outcome.map summaryJson, b)
  else c.query text b

/-- Open a controller and execute the query. -/
def answer (server : Server) (s : Settings) (asSummary : Bool) (text : String) (b : Backend) :
    Except Error Json × Backend :=
  let (opened, _, b) := Controller.open? server s .fresh b
  match opened with
  | .ok c => execute c asSummary text b
  | .error e => (.error e, b)

/-! ## Output -/

/-- How a run ends. -/
inductive Ending where
  | printed (text : String)
  | failed (error : Error)
  | misused

/-- The text of the version. -/
def versionText : String :=
  programName ++ " " ++ programVersion ++ "\n"

/-- The text of the help. -/
def helpText : String :=
  "Resolve MongoDB shell-style queries\n\n" ++
  "Usage: mongo-resolver [OPTIONS] <QUERY>\n\n" ++
  "Arguments:\n" ++
  "  <QUERY>  Shell-style query, e.g. db.users.find(\x7b\"name\":\"Ann\"\x7d)\n\n" ++
  "Options:\n" ++
  "  -c, --config <PATH>    Configuration file (defaults to ~/.mongo-resolver/config.toml)\n" ++
  "      --url <URI>        Connection URI, overriding the configured one\n" ++
  "  -d, --database <NAME>  Default database, overriding the configured one\n" ++
  "  -u, --update           Print an operation result (implied for insert, update and remove)\n" ++
  "  -v, --verbose          Enable debug logging\n" ++
  "  -h, --help             Print help\n" ++
  "  -V, --version          Print version\n"

/-- How a run ends whose arguments have been read. -/
def runWith (server : Server) (file usual : Settings.FileText) (a : Arguments) (text : String)
    (b : Backend) : Ending × Backend :=
  match loadSettings file usual a with
  | .error e => (.failed e, b)
  | .ok s =>
    let (outcome, b) := answer server s a.update text b
    match outcome with
    | .ok result => (.printed (result.pretty ++ "\n"), b)
    | .error e => (.failed e, b)

/-- A run: `file` is what the file named by the arguments holds, `usual` the usual one. -/
def run (server : Server) (file usual : Settings.FileText) (args : List String) (b : Backend) :
    Ending × Backend :=
  match Arguments.read args with
  | .error .help => (.printed helpText, b)
  | .error .version => (.printed versionText, b)
  | .error .usage => (.misused, b)
  | .ok a =>
    match a.query with
    | some text => runWith server file usual a text b
    | none => (.misused, b)

/-- The status of the process when a run has ended. -/
def Ending.status : Ending → Nat
  | printed _ => 0
  | failed _ => 1
  | misused => 2

end ShellQuery.CommandLine
