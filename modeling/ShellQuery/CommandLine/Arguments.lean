/-!
# Arguments of the command line

An argument list holds one query and options.  Options have a long name, some also a letter; letters
of options without a value may stand together behind one hyphen.  The value of an option stands in
the same argument or in the next one, which then must not look like an option.  Each option stands
at most once.  Behind `--` nothing is an option.
-/

namespace ShellQuery.CommandLine

/-! ## Options -/

/-- An option. -/
inductive Name where
  | config
  | url
  | database
  | update
  | verbose
  | help
  | version
deriving DecidableEq, Repr

/-- The option with a long name. -/
def Name.ofLong? : String → Option Name
  | "config" => some config
  | "url" => some url
  | "database" => some database
  | "update" => some update
  | "verbose" => some verbose
  | "help" => some help
  | "version" => some version
  | _ => none

/-- The option with a letter. -/
def Name.ofLetter? : Char → Option Name
  | 'c' => some config
  | 'd' => some database
  | 'u' => some update
  | 'v' => some verbose
  | 'h' => some help
  | 'V' => some version
  | _ => none

/-- Whether an option has a value. -/
def Name.takesValue : Name → Bool
  | config | url | database => true
  | update | verbose | help | version => false

/-! ## What has been read -/

/-- The arguments that have been read so far. -/
structure Arguments where
  query : Option String
  config : Option String
  url : Option String
  database : Option String
  update : Bool
  verbose : Bool
deriving DecidableEq, Repr

/-- No argument at all. -/
def Arguments.empty : Arguments :=
  ⟨none, none, none, none, false, false⟩

/-- Why reading ends early: a request for help or for the version, or arguments that do not fit. -/
inductive Stop where
  | help
  | version
  | usage
deriving DecidableEq, Repr

/-- Write a value that must not be there yet. -/
def once (old : Option String) (new : String) : Except Stop (Option String) :=
  match old with
  | none => .ok (some new)
  | some _ => .error .usage

/-- Add an option with a value; the path of a file must not be empty. -/
def Arguments.addValue (a : Arguments) (name : Name) (value : String) : Except Stop Arguments :=
  match name with
  | .config =>
    if value.isEmpty then .error .usage
    else do .ok { a with config := ← once a.config value }
  | .url => do .ok { a with url := ← once a.url value }
  | .database => do .ok { a with database := ← once a.database value }
  | _ => .error .usage

/-- Add an option without a value. -/
def Arguments.addFlag (a : Arguments) : Name → Except Stop Arguments
  | .update => if a.update then .error .usage else .ok { a with update := true }
  | .verbose => if a.verbose then .error .usage else .ok { a with verbose := true }
  | .help => .error .help
  | .version => .error .version
  | _ => .error .usage

/-- Add the query. -/
def Arguments.addQuery (a : Arguments) (value : String) : Except Stop Arguments := do
  .ok { a with query := ← once a.query value }

/-! ## Reading -/

/-- Whether an argument looks like an option; a lone hyphen does not. -/
def looksLikeOption (s : String) : Bool :=
  match s.toList with
  | '-' :: _ :: _ => true
  | _ => false

/-- The value that stands in the same argument behind a letter; an equals sign is dropped. -/
def attached (rest : List Char) : Option String :=
  match rest with
  | [] => none
  | '=' :: value => some (String.ofList value)
  | value => some (String.ofList value)

/-- Read the letters of one argument.  The second result is an option that still needs a value. -/
def readLetters (a : Arguments) : List Char → Except Stop (Arguments × Option Name)
  | [] => .ok (a, none)
  | c :: rest =>
    match Name.ofLetter? c with
    | none => .error .usage
    | some name =>
      if name.takesValue then
        match attached rest with
        | some value => (a.addValue name value).map fun a => (a, none)
        | none => .ok (a, some name)
      else
        match a.addFlag name with
        | .ok a => readLetters a rest
        | .error stop => .error stop

/-- Read an argument with a long name, which may have its value behind an equals sign. -/
def readLong (a : Arguments) (s : List Char) : Except Stop (Arguments × Option Name) :=
  let (name, rest) := s.span (· ≠ '=')
  match Name.ofLong? (String.ofList name), rest with
  | none, _ => .error .usage
  | some name, [] =>
    if name.takesValue then .ok (a, some name) else (a.addFlag name).map fun a => (a, none)
  | some name, _ :: value =>
    if name.takesValue then
      (a.addValue name (String.ofList value)).map fun a => (a, none)
    else .error .usage

/-- Read one argument that stands where an option may stand. -/
def readOne (a : Arguments) (s : String) : Except Stop (Arguments × Option Name) :=
  match s.toList with
  | '-' :: '-' :: long => readLong a long
  | '-' :: c :: letters => readLetters a (c :: letters)
  | _ => (a.addQuery s).map fun a => (a, none)

/-- Read arguments among which no option stands. -/
def readQueries (a : Arguments) : List String → Except Stop Arguments
  | [] => .ok a
  | s :: rest => do
    let a ← a.addQuery s
    readQueries a rest

/-- Read all arguments; `pending` is an option whose value must come next. -/
def readFrom (a : Arguments) : Option Name → List String → Except Stop Arguments
  | none, [] => .ok a
  | some _, [] => .error .usage
  | none, s :: rest =>
    if s = "--" then readQueries a rest
    else
      match readOne a s with
      | .ok (a, pending) => readFrom a pending rest
      | .error stop => .error stop
  | some name, s :: rest =>
    if looksLikeOption s then .error .usage
    else
      match a.addValue name s with
      | .ok a => readFrom a none rest
      | .error stop => .error stop

/-- Read an argument list. -/
def Arguments.read (args : List String) : Except Stop Arguments :=
  readFrom .empty none args

end ShellQuery.CommandLine
