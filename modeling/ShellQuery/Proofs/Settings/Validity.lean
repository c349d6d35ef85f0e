import ShellQuery.CommandLine.Run
import ShellQuery.Proofs.Outcome

/-!
# Valid settings

`PersistenceSettings.IsValid` says which settings name a backend: those with a url that is not
blank, and those without a url that have a host and a port.  The check accepts exactly these, and
settings are not handed out without the check.
-/

namespace ShellQuery

open Outcome

/-! ## The check -/

/-- The settings name a backend.  With a url it does not matter what host and port are. -/
inductive PersistenceSettings.IsValid (p : PersistenceSettings) : Prop where
  | url {url : String} (hurl : p.url = some url) (hblank : Text.blankOnly url = false)
  | host (hurl : p.url = none) (hblank : Text.blankOnly p.host = false) (hport : p.port ≠ 0)

namespace PersistenceSettings

variable {p q : PersistenceSettings}

/-- With a url it is the url that decides. -/
theorem isValid_iff_of_url {url : String} (hurl : p.url = some url) :
    p.IsValid ↔ Text.blankOnly url = false := by
  refine ⟨?_, .url hurl⟩
  rintro (⟨hurl', hblank⟩ | ⟨hurl', -, -⟩)
  · cases hurl.symm.trans hurl'
    exact hblank
  · cases hurl.symm.trans hurl'

theorem isValid_iff_of_no_url (hurl : p.url = none) :
    p.IsValid ↔ Text.blankOnly p.host = false ∧ p.port ≠ 0 := by
  refine ⟨?_, fun ⟨hblank, hport⟩ => .host hurl hblank hport⟩
  rintro (⟨hurl', -⟩ | ⟨-, hblank, hport⟩)
  · cases hurl.symm.trans hurl'
  · exact ⟨hblank, hport⟩

/-- The check accepts the settings that name a backend. -/
theorem validate_eq_ok_iff {u : Unit} : p.validate = .ok u ↔ p.IsValid := by
  unfold validate
  cases hurl : p.url with
  | some url =>
    rw [isValid_iff_of_url hurl]
    cases hblank : Text.blankOnly url <;> simp [hblank]
  | none =>
    rw [isValid_iff_of_no_url hurl]
    cases Text.blankOnly p.host <;> simp

/-- Only url, host and port are looked at. -/
theorem IsValid.congr (h : p.IsValid) (hurl : p.url = q.url) (hhost : p.host = q.host)
    (hport : p.port = q.port) : q.IsValid := by
  cases h with
  | url hp hblank => exact .url (hurl.symm.trans hp) hblank
  | host hp hblank hne => exact .host (hurl.symm.trans hp) (hhost ▸ hblank) (hport ▸ hne)

end PersistenceSettings

/-! ## Where settings come from -/

namespace Settings

variable {s s' : Settings}

theorem validated_eq_ok_iff : s.validated = .ok s' ↔ s.persistence.IsValid ∧ s = s' := by
  simp only [validated, bind_eq_ok_iff, PersistenceSettings.validate_eq_ok_iff, exists_const,
    Except.ok.injEq]

theorem isValid_of_ofDatum {dialect : Dialect} {d : Option Datum}
    (h : ofDatum dialect d = .ok s) : s.persistence.IsValid := by
  unfold ofDatum at h
  split at h
  · obtain ⟨hvalid, rfl⟩ := validated_eq_ok_iff.mp h
    exact hvalid
  · cases h

theorem isValid_of_ofFile {path : String} {text : FileText} (h : ofFile path text = .ok s) :
    s.persistence.IsValid := by
  cases text with
  | absent | unreadable => cases h
  | content text => exact isValid_of_ofDatum h

end Settings

theorem CommandLine.isValid_of_loadSettings {file usual : Settings.FileText} {a : Arguments}
    {s : Settings} (h : loadSettings file usual a = .ok s) : s.persistence.IsValid := by
  obtain ⟨read, -, hread⟩ := bind_eq_ok_iff.mp h
  obtain ⟨hvalid, rfl⟩ := Settings.validated_eq_ok_iff.mp hread
  exact hvalid

end ShellQuery
