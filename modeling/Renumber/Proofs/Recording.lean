import Renumber.Ensemble
import Renumber.Proofs.Setup
import Renumber.Proofs.Workplace

/-! Logging records the events of a run from the level of its setup on, and does not change the
run. -/
namespace Renumber

namespace Event

/-- The names of the components that report events. -/
def components : List String := ["relay_sfu::range_map", "relay_sfu::munger", "relay_sfu::registry"]

theorem target_mem_components (e : Event) : e.target ∈ components := by
  cases e <;> simp [target, components]

theorem crateTarget_prefix (e : Event) : crateTarget.toList <+: e.target.toList := by
  have hall : ∀ name ∈ components, crateTarget.toList <+: name.toList := by
    decide +kernel
  exact hall e.target e.target_mem_components

end Event

variable {host : LogHost}

/-- The records that a setup makes of events. -/
def Setup.lines (setup : Setup host) (events : List Event) : List LogLine :=
  (events.filter fun e => setup.level.rank ≤ e.level.rank).map (.record setup.format)

theorem Setup.lines_append (setup : Setup host) (earlier later : List Event) :
    setup.lines (earlier ++ later) = setup.lines earlier ++ setup.lines later := by
  rw [lines, List.filter_append, List.map_append]
  rfl

namespace LogSession

variable {session session' session'' : LogSession host} {target : host.File} {setup : Setup host}
  {lines more : List LogLine}

/-- The lines were written to the target, and nothing else changed. -/
structure Writes (session session' : LogSession host) (target : host.File)
    (lines : List LogLine) : Prop where
  dispatch : session'.dispatch = session.dispatch
  written : session'.written target = session.written target ++ lines
  others : ∀ other ≠ target, session'.written other = session.written other

theorem Writes.none (session : LogSession host) (target : host.File) :
    Writes session session target [] := ⟨rfl, (List.append_nil _).symm, fun _ _ => rfl⟩

theorem Writes.trans (h : Writes session session' target lines)
    (h' : Writes session' session'' target more) :
    Writes session session'' target (lines ++ more) where
  dispatch := h'.dispatch.trans h.dispatch
  written := by rw [h'.written, h.written, List.append_assoc]
  others other hother := (h'.others other hother).trans (h.others other hother)

theorem write_of_no_sink (hnone : session.sink? = none) (events : List Event) :
    session.write events = session := by
  rw [write, hnone]

/-- The filter of a setup lets through the events of its level and graver ones. -/
theorem writes_write (h : host.Lawful) (hsink : session.sink? = some setup.sink)
    (events : List Event) :
    Writes session (session.write events) setup.target (setup.lines events) := by
  have hlines : (events.filter (host.allows setup.sink.filter)).map
      (LogLine.record setup.sink.format) = setup.lines events := by
    refine congrArg (List.map _) (List.filter_congr fun e _ => ?_)
    exact h.allows_directive setup.level e.crateTarget_prefix
  simp only [write, hsink, hlines]
  exact ⟨rfl, h.written_append .., fun other => h.written_append_of_ne _ _⟩

end LogSession

namespace Ensemble

open LogSession

variable {ι : Type} [DecidableEq ι] {parts : ι → Part} {session : LogSession host}
  {setup : Setup host}

/-- Logging changes no answer and no state. -/
theorem recordAll_value (session : LogSession host) (w : Ensemble parts)
    (ops : List (Operation parts)) : (w.recordAll session ops).2 = (w.operateAll ops).value := by
  induction ops generalizing session w with
  | nil => rfl
  | cons op rest ih =>
    have hrest := ih (session.write (w.operate op).events) (w.operate op).value.1
    simp only [recordAll, record, operateAll, Traced.value_bind, Traced.value_pure, hrest]

theorem recordAll_of_no_sink (hnone : session.sink? = none) (w : Ensemble parts)
    (ops : List (Operation parts)) : (w.recordAll session ops).1 = session := by
  induction ops generalizing w with
  | nil => rfl
  | cons op rest ih =>
    simp only [recordAll, record, write_of_no_sink hnone, ih]

/-- A run writes what its setup makes of all its events. -/
theorem writes_recordAll (h : host.Lawful) (hsink : session.sink? = some setup.sink)
    (w : Ensemble parts) (ops : List (Operation parts)) :
    Writes session (w.recordAll session ops).1 setup.target
      (setup.lines (w.operateAll ops).events) := by
  induction ops generalizing session w with
  | nil => exact .none session setup.target
  | cons op rest ih =>
    have hfirst := writes_write h hsink (w.operate op).events
    have hstays : (session.write (w.operate op).events).sink? = some setup.sink := by
      rw [sink?, hfirst.dispatch]
      exact hsink
    have hrest := ih hstays (w.operate op).value.1
    simp only [operateAll, Traced.events_bind, Traced.events_pure, List.append_nil,
      Setup.lines_append]
    exact hfirst.trans hrest

/-- The level of the first settings cannot be read, and the second ones name a folder. -/
private def calls : List LogSettings :=
  [⟨"loud", "json", some "first.log"⟩, ⟨"info", "json", some "logs"⟩,
    ⟨"INFO", "Json", some "./logs/third.log"⟩, ⟨"trace", "pretty", none⟩]

private def shelf : Workplace := { folder := ⟨[(["logs", "third.log"], [.text "kept"])]⟩ }

/-- A registry and a history. -/
private def pair : Bool → Part
  | true => .registry
  | false => .history 16 32

private def idle : Ensemble pair
  | true => ({ settings := {} } : Registry)
  | false => (History.new 1 : History 16 32)

/-- The first event has the level `info`, the others are below it. -/
private def shift : List (Operation pair) :=
  [⟨true, .newRegistry {}⟩, ⟨true, .registry (.getOrCreate ⟨"a"⟩)⟩,
    ⟨false, .history (.edit (.exclude 1 2))⟩, ⟨false, .history (.edit (.exclude 4 5))⟩]

private theorem setup?_calls :
    calls.findSome? (fun settings =>
        (settings.setup? shelf : Option (Setup LogHost.workplace))) =
        some ⟨.info, .json, LogTarget.inside ["logs", "third.log"]⟩ ∧
      calls.findIdx (fun settings =>
        (settings.setup? shelf : Option (Setup LogHost.workplace)).isSome) = 2 := by
  have hfolder : shelf.folder.place "logs" = .folder := by
    rw [Folder.place_eq]
    decide +kernel
  have hfile : shelf.folder.place "./logs/third.log" =
      .file ["logs", "third.log"] [.text "kept"] := by
    rw [Folder.place_eq]
    decide +kernel
  have hloud : Level.read "loud" = .error (.invalidLevel "loud") := by decide +kernel
  have hinfo : Level.read "info" = .ok .info ∧ Level.read "INFO" = .ok .info := by decide +kernel
  have hjson : LogFormat.read "json" = .ok .json ∧ LogFormat.read "Json" = .ok .json := by
    decide +kernel
  have hslash : Folder.endsInSlash "./logs/third.log" = false := by decide +kernel
  have hopenFolder : LogHost.workplace.openFile shelf "logs" =
      .error (OpenError.message .isFolder) := by
    change (shelf.openFile "logs").mapError OpenError.message = _
    rw [Workplace.openFile, hfolder]
    rfl
  have hopenFile : LogHost.workplace.openFile shelf "./logs/third.log" =
      .ok (shelf.append (.inside ["logs", "third.log"]) [], .inside ["logs", "third.log"]) := by
    change (shelf.openFile "./logs/third.log").mapError OpenError.message = _
    rw [Workplace.openFile, hfile]
    simp only [hslash]
    rfl
  simp only [calls, List.findSome?_cons, List.findIdx_cons, LogSettings.setup?,
    LogSettings.prepare, LogSession.openTarget, hloud, hinfo, hjson, hopenFolder, hopenFile]
  exact ⟨rfl, rfl⟩

end Ensemble

end Renumber
