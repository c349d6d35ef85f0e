import ShellQuery.Error
import ShellQuery.Text.Blank

/-!
# Settings

Settings say how to reach the backend and how results are shaped.  The backend is named either by a
url, which then stands for all that concerns the connection, or by host and port.
-/

namespace ShellQuery

/-! ## The settings -/

/-- How to reach the backend and how to shape results. -/
structure PersistenceSettings where
  url : Option String
  host : String
  port : Nat
  username : Option String
  password : Option String
  database : Option String
  enableSsl : Option Bool
  normalizeIdFields : Bool
  allowServerEval : Bool
deriving DecidableEq, Repr

/-- How much is logged. -/
inductive LogLevel where
  | error
  | warn
  | info
  | debug
  | trace
deriving DecidableEq, Repr

/-- All settings. -/
structure Settings where
  persistence : PersistenceSettings
  level : LogLevel
deriving DecidableEq, Repr

namespace LogLevel

/-- All levels, from the quietest on. -/
def all : List LogLevel :=
  [error, warn, info, debug, trace]

/-- The name of a level in settings. -/
def name : LogLevel → String
  | error => "error"
  | warn => "warn"
  | info => "info"
  | debug => "debug"
  | trace => "trace"

/-- The name of a level in a log. -/
def logName : LogLevel → String
  | error => "ERROR"
  | warn => "WARN"
  | info => "INFO"
  | debug => "DEBUG"
  | trace => "TRACE"

/-- The level with exactly the given name. -/
def ofName? (s : String) : Option LogLevel :=
  all.find? fun level => level.name = s

end LogLevel

namespace PersistenceSettings

/-- What holds where nothing is said. -/
def default : PersistenceSettings :=
  ⟨none, "localhost", 27017, none, none, none, none, false, false⟩

/-- A url must not be blank.  Without a url, the host must not be blank and the port not zero. -/
def validate (p : PersistenceSettings) : Except Error Unit :=
  match p.url with
  | some url =>
    if Text.blankOnly url then .error (.settings (.invalidValue "url" url)) else .ok ()
  | none =>
    if Text.blankOnly p.host then .error (.settings (.missingField "host"))
    else if p.port = 0 then
      .error (.settings (.invalidValue "port" (Malformed.number p.port)))
    else .ok ()

/-- The trimmed user name, when it is not blank. -/
def credentialUsername (p : PersistenceSettings) : Option String :=
  p.username.bind Text.nonBlank?

end PersistenceSettings

namespace Settings

/-- What holds where nothing is said. -/
def default : Settings :=
  ⟨.default, .warn⟩

/-- The settings themselves, when they are valid. -/
def validated (s : Settings) : Except Error Settings := do
  s.persistence.validate
  .ok s

end Settings

end ShellQuery
