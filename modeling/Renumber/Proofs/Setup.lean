import Renumber.Logging.Session
import Mathlib.Data.List.Basic

/-! Logging is set up by the first settings that can be read and opened, and by no others. -/
namespace Renumber

variable {host : LogHost}

/-- What settings ask for, once their texts are read and their file is open. -/
structure Setup (host : LogHost) where
  level : Level
  format : LogFormat
  target : host.File

/-- The forwarder's own events of the level and graver ones go to the target. -/
def Setup.sink (setup : Setup host) : LogSink host.Filter host.File :=
  ⟨host.filterOf setup.level.directive, setup.format, setup.target⟩

namespace LogSettings

/-- Reads the texts of the settings, and then opens their file. -/
def prepare (files : host.Files) (settings : LogSettings) :
    Except LogError (host.Files × Setup host) := do
  let level ← Level.read settings.level
  let format ← LogFormat.read settings.format
  let (files, target) ← (LogSession.openTarget files settings.filePath).mapError .cannotOpen
  pure (files, ⟨level, format, target⟩)

theorem prepare_eq_ok_iff {files files' : host.Files} {settings : LogSettings}
    {setup : Setup host} : prepare files settings = .ok (files', setup) ↔
      Level.read settings.level = .ok setup.level ∧
        LogFormat.read settings.format = .ok setup.format ∧
        LogSession.openTarget files settings.filePath = .ok (files', setup.target) := by
  constructor
  · intro h
    unfold prepare at h
    cases hlevel : Level.read settings.level with
    | error e =>
      rw [hlevel] at h
      cases h
    | ok level =>
      cases hformat : LogFormat.read settings.format with
      | error e =>
        rw [hlevel, hformat] at h
        cases h
      | ok format =>
        cases hopen : LogSession.openTarget files settings.filePath with
        | error e =>
          rw [hlevel, hformat, hopen] at h
          cases h
        | ok opened =>
          rw [hlevel, hformat, hopen] at h
          cases h
          exact ⟨rfl, rfl, rfl⟩
  · rintro ⟨hlevel, hformat, hopen⟩
    rw [prepare, hlevel, hformat, hopen]
    rfl

/-- What the settings ask for, if they can be read and opened. -/
def setup? (files : host.Files) (settings : LogSettings) : Option (Setup host) :=
  (prepare files settings).toOption.map Prod.snd

end LogSettings

namespace LogSession

open LogSettings (prepare setup?)

variable {session : LogSession host} {settings : LogSettings} {files : host.Files}
  {setup : Setup host} {e : LogError}

/-- Settings that can be opened leave their file behind, but they take effect only once. -/
theorem init_eq (session : LogSession host) (settings : LogSettings) :
    session.init none settings = match prepare session.files settings with
      | .error e => (session, .error e)
      | .ok (files, setup) =>
        match host.install session.dispatch setup.sink with
        | .error cause => ({ session with files := files }, .error (.notInstalled cause))
        | .ok dispatch => (⟨dispatch, files⟩, .ok ()) := by
  unfold init prepare
  cases Level.read settings.level with
  | error e => rfl
  | ok level =>
    cases LogFormat.read settings.format with
    | error e => rfl
    | ok format =>
      cases openTarget session.files settings.filePath with
      | error e => rfl
      | ok opened => rfl

/-- Settings whose texts cannot be read are refused before a file is opened, whatever is there. -/
theorem init_of_unreadable (rules : Option String)
    (h : (Level.read settings.level).isOk = false ∨ (LogFormat.read settings.format).isOk = false) :
    ∃ e, ∀ session : LogSession host, session.init rules settings = (session, .error e) := by
  unfold init
  cases hlevel : Level.read settings.level with
  | error e => exact ⟨e, fun _ => rfl⟩
  | ok level =>
    cases hformat : LogFormat.read settings.format with
    | error e => exact ⟨e, fun _ => rfl⟩
    | ok format =>
      rw [hlevel, hformat] at h
      cases h <;> contradiction

/-- A call that fails leaves the sink in force as it was. -/
theorem init_dispatch_of_error (h : (session.init none settings).2 = .error e) :
    (session.init none settings).1.dispatch = session.dispatch := by
  rw [init_eq] at h ⊢
  cases hprepare : prepare session.files settings with
  | error e => rfl
  | ok opened =>
    simp only [hprepare] at h ⊢
    cases hinstall : host.install session.dispatch opened.2.sink with
    | error cause => rfl
    | ok dispatch =>
      rw [hinstall] at h
      cases h

section Lawful

variable (h : host.Lawful)
include h

theorem init_of_sink {sink : LogSink host.Filter host.File} (hsink : session.sink? = some sink)
    (settings : LogSettings) : (session.init none settings).1.sink? = some sink ∧
      (session.init none settings).2.isOk = false := by
  rw [init_eq]
  cases prepare session.files settings with
  | error e => exact ⟨hsink, rfl⟩
  | ok opened =>
    obtain ⟨cause, hinstall⟩ := h.install_of_some opened.2.sink hsink
    simp only [hinstall]
    exact ⟨hsink, rfl⟩

theorem init_of_setup (hnone : session.sink? = none)
    (hsetup : setup? session.files settings = some setup) :
    (session.init none settings).1.sink? = some setup.sink ∧
      (session.init none settings).2 = .ok () := by
  obtain ⟨⟨files, setup⟩, hprepare, rfl⟩ := Option.map_eq_some_iff.mp hsetup
  rw [init_eq]
  cases hp : prepare session.files settings with
  | error e =>
    rw [hp] at hprepare
    cases hprepare
  | ok opened =>
    rw [hp] at hprepare
    cases hprepare
    obtain ⟨dispatch, hinstall, hsink⟩ := h.install_of_none setup.sink hnone
    simp only [hinstall]
    exact ⟨hsink, trivial⟩

omit h in
theorem init_of_no_setup (hsetup : setup? session.files settings = none) :
    ∃ e, session.init none settings = (session, .error e) := by
  rw [init_eq]
  cases hp : prepare session.files settings with
  | error e => exact ⟨e, rfl⟩
  | ok opened =>
    rw [setup?, hp] at hsetup
    cases hsetup

theorem initAll_of_sink {sink : LogSink host.Filter host.File} (hsink : session.sink? = some sink)
    (inits : List LogSettings) : (session.initAll none inits).1.sink? = some sink ∧
      (session.initAll none inits).2.map Except.isOk = inits.map fun _ => false := by
  induction inits generalizing session with
  | nil => exact ⟨hsink, rfl⟩
  | cons settings rest ih =>
    obtain ⟨hstays, hfails⟩ := init_of_sink h hsink settings
    obtain ⟨hlast, hrest⟩ := ih hstays
    refine ⟨hlast, ?_⟩
    rw [initAll, List.map_cons, List.map_cons, hfails, hrest]

/-- The first settings that can be read and opened take effect, and all other calls fail. -/
theorem initAll_of_no_sink (hnone : session.sink? = none) (inits : List LogSettings) :
    (session.initAll none inits).1.sink? =
        (inits.findSome? (setup? session.files)).map Setup.sink ∧
      (session.initAll none inits).2.map Except.isOk = inits.mapIdx fun i _ =>
        decide (i = inits.findIdx fun settings => (setup? session.files settings).isSome) := by
  induction inits with
  | nil => exact ⟨hnone, rfl⟩
  | cons settings rest ih =>
    rw [List.findSome?_cons, List.findIdx_cons, List.mapIdx_cons, initAll, List.map_cons]
    cases hsetup : setup? session.files settings with
    | some setup =>
      obtain ⟨hsink, hresult⟩ := init_of_setup h hnone hsetup
      obtain ⟨hlast, hrest⟩ := initAll_of_sink h hsink rest
      refine ⟨hlast, ?_⟩
      rw [hresult, hrest]
      refine congrArg (true :: ·) (List.ext_getElem (by simp) ?_)
      simp
    | none =>
      obtain ⟨e, hinit⟩ := init_of_no_setup hsetup
      rw [hinit, ih.2]
      refine ⟨ih.1, ?_⟩
      simp [Except.isOk, Except.toBool]

theorem written_of_openTarget {path : Option String} {files files' : host.Files}
    {target : host.File} (hopen : openTarget files path = .ok (files', target)) (file : host.File) :
    host.written files' file = host.written files file := by
  cases path with
  | none =>
    cases hopen
    rfl
  | some path => exact h.written_open hopen file

/-- A call writes nothing to any file. -/
theorem written_init (session : LogSession host) (settings : LogSettings) (file : host.File) :
    (session.init none settings).1.written file = session.written file := by
  rw [init_eq]
  cases hprepare : prepare session.files settings with
  | error e => rfl
  | ok opened =>
    have hopened := written_of_openTarget h (LogSettings.prepare_eq_ok_iff.mp hprepare).2.2 file
    cases hinstall : host.install session.dispatch opened.2.sink with
    | error cause =>
      simp only [hinstall]
      exact hopened
    | ok dispatch =>
      simp only [hinstall]
      exact hopened

theorem written_initAll (session : LogSession host) (inits : List LogSettings) (file : host.File) :
    (session.initAll none inits).1.written file = session.written file := by
  induction inits generalizing session with
  | nil => rfl
  | cons settings rest ih =>
    exact (ih (session.init none settings).1).trans (written_init h session settings file)

end Lawful

end LogSession

end Renumber
