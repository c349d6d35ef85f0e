import ShellQuery.Proofs.Settings.Validity

/-!
# Arguments over settings

The arguments of a run take the place of settings that a file holds, and the result is checked.  The
file is checked before that on its own, though.  So a file whose connection is not valid keeps a run
from starting even when the arguments name a url, which stands for all that concerns the connection:
`loadSettings_checks_file_first`.
-/

namespace ShellQuery

open Outcome

/-- The settings that a text holds, before they are checked. -/
def Settings.written? (text : String) : Option Settings :=
  ((Toml.parse? text).map fun entries => (Toml.table entries).datum).bind
    (Settings.ofDatum? .toml)

namespace CommandLine

variable {file usual : Settings.FileText} {a : Arguments} {text : String} {s₀ s : Settings}

/-- The text is that of the file with the settings of a run: the file that the arguments name, or
    the usual file when they name none. -/
inductive ReadsSettings (file usual : Settings.FileText) (a : Arguments) (text : String) :
    Prop where
  | named {path : String} (hconfig : a.config = some path) (hfile : file = .content text)
  | usual (hconfig : a.config = none) (husual : usual = .content text)

/-! ## Loading -/

theorem loadFile_eq (hreads : ReadsSettings file usual a text) :
    loadFile file usual a = Settings.ofToml text := by
  cases hreads with
  | named hconfig hfile => simp only [loadFile, hconfig, hfile, Settings.ofFile]
  | usual hconfig husual => simp only [loadFile, hconfig, husual, Settings.ofFile]

/-- Settings are checked twice: as the file has them, and with the values of arguments. -/
theorem loadSettings_eq (hreads : ReadsSettings file usual a text)
    (hwritten : Settings.written? text = some s₀) :
    loadSettings file usual a = s₀.validated >>= fun s => (override a s).validated := by
  have htoml : Settings.ofToml text = s₀.validated := by
    unfold Settings.written? at hwritten
    simp only [Settings.ofToml, Settings.ofDatum, hwritten]
  rw [loadSettings, loadFile_eq hreads, htoml]

theorem loadSettings_eq_ok_iff (hreads : ReadsSettings file usual a text)
    (hwritten : Settings.written? text = some s₀) :
    loadSettings file usual a = .ok s ↔
      s₀.persistence.IsValid ∧ (override a s₀).persistence.IsValid ∧ override a s₀ = s := by
  simp only [loadSettings_eq hreads hwritten, bind_eq_ok_iff, Settings.validated_eq_ok_iff]
  constructor
  · rintro ⟨_, ⟨hfile, rfl⟩, hvalid, rfl⟩
    exact ⟨hfile, hvalid, rfl⟩
  · rintro ⟨hfile, hvalid, rfl⟩
    exact ⟨s₀, ⟨hfile, rfl⟩, hvalid, rfl⟩

/-! ## What arguments change -/

/-- With a url among the arguments nothing else matters for the connection. -/
theorem isValid_override_of_url {url : String} (hurl : a.url = some url) :
    (override a s₀).persistence.IsValid ↔ Text.blankOnly url = false :=
  PersistenceSettings.isValid_iff_of_url (by simp [override, hurl])

/-- Without a url among the arguments the connection is that of the file. -/
theorem isValid_override_of_no_url (hurl : a.url = none) :
    (override a s₀).persistence.IsValid ↔ s₀.persistence.IsValid := by
  have hsame : (override a s₀).persistence.url = s₀.persistence.url := by simp [override, hurl]
  exact ⟨fun h => h.congr hsame rfl rfl, fun h => h.congr hsame.symm rfl rfl⟩

/-! ## Main result -/

/-- A run starts when the file is valid by itself and with the arguments, and then with the settings
    of the file under the arguments.  If the file is valid, or no url that is not blank stands among
    the arguments, then the settings that take effect decide alone.  Else the file is turned down
    for its connection, though these settings are valid. -/
theorem loadSettings_checks_file_first (file usual : Settings.FileText) (a : Arguments)
    (text : String) (s₀ : Settings) (hreads : ReadsSettings file usual a text)
    (hwritten : Settings.written? text = some s₀) :
    (∀ s, loadSettings file usual a = .ok s ↔
      s₀.persistence.IsValid ∧ (override a s₀).persistence.IsValid ∧ override a s₀ = s) ∧
    ((s₀.persistence.IsValid ∨ ∀ url, a.url = some url → Text.blankOnly url = true) →
      ∀ s, loadSettings file usual a = .ok s ↔
        (override a s₀).persistence.IsValid ∧ override a s₀ = s) ∧
    (¬ s₀.persistence.IsValid → ∀ url, a.url = some url → Text.blankOnly url = false →
      (override a s₀).persistence.IsValid ∧
        ∃ e, s₀.persistence.validate = .error e ∧ loadSettings file usual a = .error e) := by
  refine ⟨fun s => loadSettings_eq_ok_iff hreads hwritten, ?_, ?_⟩
  · intro hcause s
    rw [loadSettings_eq_ok_iff hreads hwritten, and_iff_right_iff_imp]
    rintro ⟨hvalid, -⟩
    obtain hfile | hblank := hcause
    · exact hfile
    · -- the connection is that of the file, as a url of the arguments would be blank
      cases hurl : a.url with
      | none => exact (isValid_override_of_no_url hurl).mp hvalid
      | some url =>
        have hnot := (isValid_override_of_url hurl).mp hvalid
        rw [hblank url hurl] at hnot
        cases hnot
  · -- the url of the arguments would make the settings valid, but the file is checked before it
    intro hfile url hurl hblank
    refine ⟨(isValid_override_of_url hurl).mpr hblank, ?_⟩
    cases hvalidate : s₀.persistence.validate with
    | ok u => exact absurd (PersistenceSettings.validate_eq_ok_iff.mp hvalidate) hfile
    | error e =>
      refine ⟨e, rfl, ?_⟩
      simp only [loadSettings_eq hreads hwritten, Settings.validated, hvalidate, bind, Except.bind]

/-- Arguments that name a file, and a url of their own. -/
def urlArguments : Arguments :=
  ⟨some "c.find()", some "c.toml", some "nope", none, false, false⟩

/-- A file that names a host. -/
def hostFile : String :=
  "[persistence]\nhost = \"h\"\n"

/-- A url among the arguments takes the place of the host of a file. -/
theorem url_over_host_loaded :
    ∃ s₀ s, ReadsSettings (.content hostFile) .absent urlArguments hostFile ∧
      Settings.written? hostFile = some s₀ ∧
      loadSettings (.content hostFile) .absent urlArguments = .ok s ∧
      s.persistence.url = some "nope" := by
  have hwritten : Settings.written? hostFile =
      some ⟨⟨none, "h", 27017, none, none, none, none, false, false⟩, .warn⟩ := by
    decide +kernel
  have hreads : ReadsSettings (.content hostFile) .absent urlArguments hostFile := .named rfl rfl
  have hfile : PersistenceSettings.IsValid
      ⟨none, "h", 27017, none, none, none, none, false, false⟩ :=
    .host rfl (by decide) (by decide)
  have hloads := (loadSettings_checks_file_first _ _ _ _ _ hreads hwritten).1
  exact ⟨_, _, hreads, hwritten,
    (hloads _).mpr ⟨hfile, (isValid_override_of_url rfl).mpr (by decide), rfl⟩, rfl⟩

/-- A file with a blank url. -/
def blankUrlFile : String :=
  "[persistence]\nurl = \"\"\n"

/-- A url among the arguments does not help where the file has a blank one: what would take effect
    is valid, and is not loaded. -/
theorem blank_url_not_overridden :
    ∃ s₀, ReadsSettings (.content blankUrlFile) .absent urlArguments blankUrlFile ∧
      Settings.written? blankUrlFile = some s₀ ∧
      (override urlArguments s₀).persistence.IsValid ∧
      ∀ s, loadSettings (.content blankUrlFile) .absent urlArguments ≠ .ok s := by
  have hwritten : Settings.written? blankUrlFile =
      some ⟨⟨some "", "localhost", 27017, none, none, none, none, false, false⟩, .warn⟩ := by
    decide +kernel
  have hreads : ReadsSettings (.content blankUrlFile) .absent urlArguments blankUrlFile :=
    .named rfl rfl
  refine ⟨_, hreads, hwritten, (isValid_override_of_url rfl).mpr (by decide), fun s h => ?_⟩
  have hfile := ((loadSettings_eq_ok_iff hreads hwritten).mp h).1
  rw [PersistenceSettings.isValid_iff_of_url rfl] at hfile
  cases hfile

end CommandLine

end ShellQuery
