import ShellQuery.Entries
import ShellQuery.Text.Bytes
import ShellQuery.Text.Integer

/-!
# Connection strings

A connection string is `mongodb://[user[:password]@]host[:port][,…][/database][?name=value[&…]]`.
It says what a client needs to know: the servers, who asks, whether the connection is encrypted and
which database is meant when none is named.

* An address is the name of a host with an optional port.  A host that is given as an address of
  version six of the internet protocol stands in brackets.
* User, password and database are percent-encoded: a percent sign and two hexadecimal digits stand
  for a byte.  A text is decoded to bytes, which then must be the UTF-8 form of a text.
* Each option has a fixed name, which is recognised in any case, and a form that its value must
  have.
-/

namespace ShellQuery

/-! ## What a client needs to know -/

/-- The address of a server. -/
structure Address where
  host : String
  port : Option Nat
deriving DecidableEq, Repr

/-- Who asks, and the database that knows them. -/
structure Credential where
  username : Option String
  password : Option String
  source : Option String
deriving DecidableEq, Repr

/-- What a client needs to know. -/
structure ClientOptions where
  hosts : List Address
  credential : Option Credential
  tls : Option Bool
  defaultDatabase : Option String
deriving DecidableEq, Repr

namespace Address

/-! ## Internet addresses -/

/-- A group of one to four hexadecimal digits. -/
def isGroup (s : List Char) : Bool :=
  1 ≤ s.length && s.length ≤ 4 && s.all Text.isHexDigit

/-- A number from 0 to 255 without zeros in front. -/
def isOctet (s : List Char) : Bool :=
  (s.length == 1 || s.head? != some '0') && s.length ≤ 3 && (Text.natOfDigits? s).any (· ≤ 255)

/-- Four octets joined by points. -/
def isDottedQuad (s : List Char) : Bool :=
  let parts := Text.splitOn '.' s
  parts.length == 4 && parts.all isOctet

/-- How many groups a run of groups joined by colons has; a dotted quad at its end counts as two.
    None when it is no such run. -/
def groupCount? (mayEndDotted : Bool) (s : List Char) : Option Nat :=
  if s.isEmpty then some 0
  else
    let parts := Text.splitOn ':' s
    if parts.all isGroup then some parts.length
    else if mayEndDotted && parts.dropLast.all isGroup && parts.getLast?.any isDottedQuad then
      some (parts.length + 1)
    else none

/-- Split at the first pair of colons. -/
def splitPair : List Char → Option (List Char × List Char)
  | ':' :: ':' :: r => some ([], r)
  | c :: r => (splitPair r).map fun parts => (c :: parts.1, parts.2)
  | [] => none

/-- Whether the text is an address of version six: eight groups, of which a run may be left out
    between two colons. -/
def isVersionSix (s : List Char) : Bool :=
  match splitPair s with
  | some (before, after) =>
    match groupCount? false before, groupCount? true after with
    | some m, some n => m + n ≤ 7
    | _, _ => false
  | none => groupCount? true s == some 8

/-! ## Reading addresses -/

/-- A port, which is not zero. -/
def port? (s : List Char) : Option Nat :=
  (Text.readNatural s).filter fun n => 0 < n && n < 65536

/-- The address of a host and the text of its port, which may be left out. -/
def ofParts? (host : List Char) (port : Option (List Char)) : Option Address :=
  if host.isEmpty then none
  else
    let name := String.ofList (host.map Char.toLower)
    match port with
    | none => some ⟨name, none⟩
    | some digits => (port? digits).map fun n => ⟨name, some n⟩

/-- Read an address. -/
def read? : List Char → Option Address
  | '[' :: r => do
    let (host, rest) ← Text.splitFirst? ']' r
    if isVersionSix host then
      match rest with
      | [] => ofParts? host none
      | ':' :: digits => ofParts? host (some digits)
      | _ => none
    else none
  | s =>
    match Text.splitFirst? ':' s with
    | some (host, digits) => ofParts? host (some digits)
    | none => ofParts? s none

end Address

namespace Percent

/-! ## Percent encoding -/

/-- The bytes of a text. -/
def utf8 (s : List Char) : List UInt8 :=
  (String.ofList s).toUTF8.toList

/-- The bytes of an encoded text; a percent sign without two digits stands for itself. -/
def bytes : List Char → List UInt8
  | [] => []
  | '%' :: a :: b :: r =>
    match Text.natOfHex? [a, b] with
    | some n => UInt8.ofNat n :: bytes r
    | none => utf8 ['%'] ++ bytes (a :: b :: r)
  | c :: r => utf8 [c] ++ bytes r

/-- The text of bytes, when they are the UTF-8 form of one. -/
def text? (data : List UInt8) : Option String :=
  String.fromUTF8? (ByteArray.mk data.toArray)

/-- Decode a text. -/
def decode? (s : List Char) : Option String :=
  text? (bytes s)

/-- Whether two hexadecimal digits follow each percent sign. -/
def isComplete : List Char → Bool
  | [] => true
  | '%' :: a :: b :: r => Text.isHexDigit a && Text.isHexDigit b && isComplete r
  | c :: r => c != '%' && isComplete r

end Percent

namespace ConnectionString

/-! ## Parts of a connection string -/

/-- Split at the last occurrence of a character. -/
def splitLast? (mark : Char) (s : List Char) : Option (List Char × List Char) :=
  (Text.splitFirst? mark s.reverse).map fun parts => (parts.2.reverse, parts.1.reverse)

/-- The text behind the scheme, which must be the right one. -/
def dropScheme : List Char → Option (List Char)
  | 'm' :: 'o' :: 'n' :: 'g' :: 'o' :: 'd' :: 'b' :: ':' :: '/' :: '/' :: r => some r
  | _ => none

/-- The parts of a connection string behind its scheme. -/
structure Parts where
  user : Option (List Char)
  hosts : List Char
  database : List Char
  options : List Char

/-- Cut a connection string, without its scheme, into its parts. -/
def Parts.ofText (s : List Char) : Parts :=
  let (front, options) := (Text.splitFirst? '?' s).getD (s, [])
  let (user, rest) :=
    match splitLast? '@' front with
    | some (user, rest) => (some user, rest)
    | none => (none, front)
  let (hosts, database) := (Text.splitFirst? '/' rest).getD (rest, [])
  ⟨user, hosts, database, options⟩

/-- A user name or password.  Characters that part the string must be percent-encoded in it. -/
def userText? (s : List Char) : Option String :=
  if s.any fun c => [':', '/', '?', '#', '[', ']', '@'].contains c then none
  else if Percent.isComplete s then Percent.decode? s
  else none

/-- User name and password; the name must not be empty. -/
def user? (s : List Char) : Option (String × Option String) :=
  let (name, password) :=
    match Text.splitFirst? ':' s with
    | some (name, password) => (name, some password)
    | none => (s, none)
  if name.isEmpty then none
  else
    match userText? name, password with
    | some name, none => some (name, none)
    | some name, some password => (userText? password).map fun p => (name, some p)
    | none, _ => none

/-- Characters that no name of a database has. -/
def isIllegalInDatabase (c : Char) : Bool :=
  ['/', '\\', ' ', '"', '$', '.'].contains c

/-- The name of a database; an empty text names none. -/
def database? (s : List Char) : Option (Option String) :=
  if s.isEmpty then some none
  else
    match Percent.decode? s with
    | some name => if name.toList.any isIllegalInDatabase then none else some (some name)
    | none => none

/-! ## Options -/

/-- The forms that values of options have. -/
inductive Form where
  | text
  | flag
  | natural (bound : Nat)
  | integer
  | choice (words : List String)
  | wordInAnyCase (words : List String)

/-- Numbers of 32 bits stay below this bound. -/
def bound32 : Nat := 4294967296

/-- The options and the forms of their values. -/
def forms : List (String × Form) :=
  [("appname", .text), ("authsource", .text), ("authmechanismproperties", .text),
   ("authmechanism", .choice ["SCRAM-SHA-1", "SCRAM-SHA-256", "MONGODB-X509", "PLAIN"]),
   ("compressors", .text), ("connecttimeoutms", .natural Text.bound64),
   ("directconnection", .flag), ("heartbeatfrequencyms", .natural Text.bound64),
   ("journal", .flag), ("loadbalanced", .flag), ("localthresholdms", .natural Text.bound64),
   ("maxconnecting", .natural bound32), ("maxidletimems", .natural Text.bound64),
   ("maxpoolsize", .natural bound32), ("maxstalenessseconds", .integer),
   ("minpoolsize", .natural bound32), ("readconcernlevel", .text),
   ("readpreference", .wordInAnyCase
     ["primary", "secondary", "primarypreferred", "secondarypreferred", "nearest"]),
   ("readpreferencetags", .text), ("replicaset", .text), ("retryreads", .flag),
   ("retrywrites", .flag), ("servermonitoringmode", .choice ["stream", "poll", "auto"]),
   ("serverselectiontimeoutms", .natural Text.bound64),
   ("sockettimeoutms", .natural Text.bound64), ("ssl", .flag), ("tls", .flag),
   ("tlsallowinvalidcertificates", .flag), ("tlscafile", .text),
   ("tlscertificatekeyfile", .text), ("tlsinsecure", .flag),
   ("uuidrepresentation", .choice ["csharpLegacy", "javaLegacy", "pythonLegacy"]),
   ("w", .text), ("waitqueuetimeoutms", .natural Text.bound64),
   ("wtimeoutms", .natural Text.bound64), ("zlibcompressionlevel", .integer)]

/-- Whether a value has the form of its option. -/
def Form.accepts : Form → String → Bool
  | text, _ => true
  | flag, s => s = "true" || s = "false"
  | natural bound, s => (Text.readNatural s.toList).any (· < bound)
  | integer, s => (Text.readSigned64 s.toList).isSome
  | choice words, s => words.contains s
  | wordInAnyCase words, s => words.contains (String.ofList (s.toList.map Char.toLower))

/-- One option: its name in lower case and its decoded value. -/
def option? (s : List Char) : Option (String × String) :=
  match Text.splitFirst? '=' s with
  | none => none
  | some (name, value) => do
    let name := String.ofList (name.map Char.toLower)
    let value ← Percent.decode? value
    let form ← Entries.find? forms name
    if form.accepts value then some (name, value) else none

/-- Whether a name stands in the list twice; only tags may. -/
def hasRepeat : List (String × String) → Bool
  | [] => false
  | (name, _) :: rest =>
    (name != "readpreferencetags" && Entries.has rest name) || hasRepeat rest

/-- All options of a connection string. -/
def options? (s : List Char) : Option (List (String × String)) :=
  if s.isEmpty then some []
  else
    match (Text.splitOn '&' s).mapM option? with
    | some options => if hasRepeat options then none else some options
    | none => none

/-- Whether an option has a given value. -/
def isSet (options : List (String × String)) (name value : String) : Bool :=
  Entries.find? options name = some value

/-- The names of options that only mean something on an encrypted connection. -/
def encryptedOnly : List String :=
  ["tlsinsecure", "tlsallowinvalidcertificates", "tlscafile", "tlscertificatekeyfile"]

/-- Whether the connection is encrypted, when the options say so; none when they contradict one
    another. -/
def tls? (options : List (String × String)) : Option (Option Bool) :=
  let on := isSet options "tls" "true" || isSet options "ssl" "true"
  let off := isSet options "tls" "false" || isSet options "ssl" "false"
  let extra := encryptedOnly.any (Entries.has options)
  if on && off || off && extra then none
  else if on || extra then some (some true)
  else if off then some (some false)
  else some none

/-- The number that an option gives. -/
def number? (options : List (String × String)) (name : String) : Option Nat :=
  (Entries.find? options name).bind fun s => Text.readNatural s.toList

/-- Whether the options fit together and go with the number of hosts. -/
def areConsistent (hostCount : Nat) (options : List (String × String)) : Bool :=
  let direct := isSet options "directconnection" "true"
  let balanced := isSet options "loadbalanced" "true"
  let pool := number? options "maxpoolsize"
  !(direct && 1 < hostCount) &&
    !(balanced && (1 < hostCount || direct || Entries.has options "replicaset")) &&
    !((number? options "heartbeatfrequencyms").any (· < 500)) &&
    !((number? options "maxconnecting").any (· = 0)) &&
    !((number? options "minpoolsize").any fun least => pool.any (· < least)) &&
    !(isSet options "w" "0" && isSet options "journal" "true")

/-! ## Credentials -/

/-- The database that knows a user: the one that the options name, or the one of the string, or the
    one where it is usual to look. -/
def source (options : List (String × String)) (database : Option String) : String :=
  match Entries.find? options "authsource" with
  | some name => name
  | none =>
    match Entries.find? options "authmechanism" with
    | some "MONGODB-X509" => "$external"
    | some "PLAIN" => database.getD "$external"
    | _ => database.getD "admin"

/-- The credential of a connection string. -/
def credential? (user : Option (List Char)) (options : List (String × String))
    (database : Option String) : Option (Option Credential) :=
  match user with
  | some text =>
    (user? text).map fun found => some ⟨some found.1, found.2, some (source options database)⟩
  | none =>
    match Entries.find? options "authmechanism" with
    | none => some none
    | some "MONGODB-X509" => some (some ⟨none, none, some (source options database)⟩)
    | some _ => none

/-! ## Reading connection strings -/

/-- The options that a connection string gives. -/
def read? (text : String) : Option ClientOptions := do
  let rest ← dropScheme text.toList
  let parts := Parts.ofText rest
  let hosts ← (Text.splitOn ',' parts.hosts).mapM Address.read?
  let database ← database? parts.database
  let options ← options? parts.options
  let tls ← tls? options
  let credential ← credential? parts.user options database
  if areConsistent hosts.length options then some ⟨hosts, credential, tls, database⟩ else none

end ConnectionString

end ShellQuery
