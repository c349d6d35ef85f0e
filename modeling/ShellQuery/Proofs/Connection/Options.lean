import ShellQuery.Connection.Client
import ShellQuery.Proofs.Settings.Validity
import ShellQuery.Proofs.Text.Names

/-!
# The client of valid settings

Settings are checked before they are handed out, and the client is made from them without a further
check.  Whether a url or the host counts is decided in both places, and a blank url is where the two
could part.  They do not: `loaded_settings_usable` says what the client of valid settings is, by url
and by host, and that all settings that are loaded are valid.
-/

namespace ShellQuery

/-! ## Blank texts -/

namespace Text

variable {s : String}

/-- A string is blank when trimming leaves nothing of it. -/
theorem blankOnly_iff_trimmed : blankOnly s = true ↔ trimmed s = "" := by
  rw [blankOnly, List.all_eq_true, trimmed, String.ofList_eq_empty_iff]
  constructor
  · intro h
    rw [trim, dropBlank, List.dropWhile_eq_nil_iff.mpr h]
    rfl
  · intro h c hc
    -- all that trimming drops is blank, and it has dropped everything
    obtain ⟨before, after, hbefore, hafter, hs⟩ := exists_blank_append_trim s.toList
    rw [hs, h, List.nil_append] at hc
    exact (List.mem_append.mp hc).elim (hbefore c) (hafter c)

theorem nonBlank?_of_trimmed (h : trimmed s ≠ "") : nonBlank? s = some (trimmed s) := by
  rw [nonBlank?, if_neg (blankOnly_iff_trimmed.not.mpr h)]

theorem nonBlank?_of_blank (h : trimmed s = "") : nonBlank? s = none := by
  rw [nonBlank?, if_pos (blankOnly_iff_trimmed.mpr h)]

end Text

/-! ## Options by url -/

namespace ClientOptions

variable {p q : PersistenceSettings} {url : String}

/-- What a url makes of a client: the options that it is read as, or an error of the url. -/
inductive ByUrl (url : String) : Except ConnectionError ClientOptions → Prop where
  | read {options : ClientOptions} (h : ConnectionString.read? url = some options) :
      ByUrl url (.ok options)
  | invalid {detail : String} (h : ConnectionString.read? url = none) :
      ByUrl url (.error (.invalidUri detail))

theorem byUrl_ofUrl (url : String) : ByUrl url (ofUrl url) := by
  unfold ofUrl
  split
  · next options h => exact .read h
  · next h => exact .invalid h

/-- A url that is not blank is the only setting that counts. -/
theorem ofSettings_of_url (hurl : p.url = some url) (hblank : Text.trimmed url ≠ "") :
    ofSettings p = ofUrl (Text.trimmed url) := by
  simp only [ofSettings, hurl, Option.bind_some, Text.nonBlank?_of_trimmed hblank]

/-! ## Options by host -/

/-- The credential of settings: the trimmed name with the password, known to the database, and none
    without a name that is not blank. -/
inductive CredentialOf (p : PersistenceSettings) : Option Credential → Prop where
  | named {name : String} (hname : p.username = some name) (hblank : Text.trimmed name ≠ "") :
      CredentialOf p (some ⟨some (Text.trimmed name), p.password, p.database⟩)
  | anonymous (h : ∀ name, p.username = some name → Text.trimmed name = "") : CredentialOf p none

/-- The options have one server, the host and port of the settings, and the credential and
    encryption that the settings ask for. -/
structure ByHost (p : PersistenceSettings) (options : ClientOptions) : Prop where
  hosts : options.hosts = [⟨p.host, some p.port⟩]
  host : Text.trimmed p.host ≠ ""
  port : p.port ≠ 0
  credential : CredentialOf p options.credential
  tls : options.tls = p.enableSsl
  defaultDatabase : options.defaultDatabase = none

theorem credentialOf_ofHost (p : PersistenceSettings) : CredentialOf p (ofHost p).credential := by
  unfold ofHost PersistenceSettings.credentialUsername
  cases husername : p.username with
  | none => exact .anonymous (by simp [husername])
  | some name =>
    by_cases hblank : Text.trimmed name = ""
    · rw [Option.bind_some, Text.nonBlank?_of_blank hblank]
      refine .anonymous fun other hother => ?_
      cases husername.symm.trans hother
      exact hblank
    · rw [Option.bind_some, Text.nonBlank?_of_trimmed hblank]
      exact .named husername hblank

/-- Valid settings without a url name one server. -/
theorem byHost_ofHost (hvalid : p.IsValid) (hurl : p.url = none) : ByHost p (ofHost p) where
  hosts := rfl
  host := by
    have hblank := ((PersistenceSettings.isValid_iff_of_no_url hurl).mp hvalid).1
    exact fun h => Bool.eq_false_iff.mp hblank (Text.blankOnly_iff_trimmed.mpr h)
  port := ((PersistenceSettings.isValid_iff_of_no_url hurl).mp hvalid).2
  credential := credentialOf_ofHost p
  tls := rfl
  defaultDatabase := rfl

end ClientOptions

/-! ## Main result -/

/-- The settings have been read from a text, a file, a value or for a run of the program. -/
inductive Settings.IsLoaded (s : Settings) : Prop where
  | ofToml {text : String} (h : Settings.ofToml text = .ok s)
  | ofFile {path : String} {text : FileText} (h : Settings.ofFile path text = .ok s)
  | ofJson {v : Json} (h : Settings.ofJson v = .ok s)
  | ofRun {file usual : FileText} {a : CommandLine.Arguments}
      (h : CommandLine.loadSettings file usual a = .ok s)

theorem Settings.IsLoaded.isValid {s : Settings} (h : s.IsLoaded) : s.persistence.IsValid := by
  cases h with
  | ofToml h | ofJson h => exact Settings.isValid_of_ofDatum h
  | ofFile h => exact Settings.isValid_of_ofFile h
  | ofRun h => exact CommandLine.isValid_of_loadSettings h

namespace ClientOptions

/-- Settings that are loaded are valid, and valid settings give a client.  A url decides alone, and
    gives the options that it is read as or an error of the url.  Without a url the client is that
    of the host, whatever else is set. -/
theorem loaded_settings_usable :
    (∀ s : Settings, s.IsLoaded → s.persistence.validate = .ok ()) ∧
    ∀ p : PersistenceSettings, p.validate = .ok () →
      (∀ url, p.url = some url →
        ByUrl (Text.trimmed url) (ofSettings p) ∧
        ∀ q : PersistenceSettings, q.url = some url → ofSettings q = ofSettings p) ∧
      (p.url = none → ∃ options, ofSettings p = .ok options ∧ ByHost p options) := by
  refine ⟨fun s h => PersistenceSettings.validate_eq_ok_iff.mpr h.isValid, fun p hp => ⟨?_, ?_⟩⟩
  · intro url hurl
    have hvalid := PersistenceSettings.validate_eq_ok_iff.mp hp
    have hblank : Text.trimmed url ≠ "" := by
      have hblank := (PersistenceSettings.isValid_iff_of_url hurl).mp hvalid
      exact fun h => Bool.eq_false_iff.mp hblank (Text.blankOnly_iff_trimmed.mpr h)
    rw [ofSettings_of_url hurl hblank]
    exact ⟨byUrl_ofUrl _, fun q hq => ofSettings_of_url hq hblank⟩
  · intro hurl
    have hvalid := PersistenceSettings.validate_eq_ok_iff.mp hp
    refine ⟨ofHost p, ?_, byHost_ofHost hvalid hurl⟩
    simp only [ofSettings, hurl, Option.bind_none]

/-- The settings of an empty object give a client by host, and those with a url one by that url,
    which is trimmed. -/
theorem loaded_settings_usable_either_way :
    Settings.IsLoaded .default ∧
    (∃ options, ofSettings Settings.default.persistence = .ok options ∧
      ByHost Settings.default.persistence options) ∧
    ByUrl "mongodb://h" (ofSettings { PersistenceSettings.default with
      url := some " mongodb://h " }) := by
  have hloaded : Settings.IsLoaded .default := by
    have hjson : Settings.ofJson (.obj []) = .ok .default := by rfl
    exact .ofJson hjson
  have htrimmed : Text.trimmed " mongodb://h " = "mongodb://h" := by decide
  obtain ⟨hvalid, husable⟩ := loaded_settings_usable
  have hurl := (husable { PersistenceSettings.default with url := some " mongodb://h " } rfl).1
  refine ⟨hloaded, (husable _ (hvalid _ hloaded)).2 rfl, ?_⟩
  rw [← htrimmed]
  exact (hurl _ rfl).1

end ClientOptions

end ShellQuery
