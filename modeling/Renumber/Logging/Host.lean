import Renumber.Logging.Record

/-! What a process has around it for its logs: files, filters of events, and the one place in which
a sink is installed. -/
namespace Renumber

/-- Where records go, which ones, and in which form. -/
structure LogSink (Filter File : Type) where
  filter : Filter
  format : LogFormat
  target : File
  deriving DecidableEq, Repr

/-- The operations on files, filters and the installed sink. -/
structure LogHost where
  /-- The states of all files. -/
  Files : Type
  /-- A file, whatever paths lead to it, or anything else that takes lines. -/
  File : Type
  Filter : Type
  /-- The states of the place for a sink. -/
  Dispatch : Type
  /-- Standard output. -/
  output : File
  /-- All lines that a file has taken, oldest first. -/
  written : Files → File → List LogLine
  /-- Opens the file at a path to append to it. A file that is not there is made. -/
  openFile : Files → String → Except String (Files × File)
  append : Files → File → List LogLine → Files
  /-- Reads the rules of a filter. -/
  filter? : String → Option Filter
  /-- The filter of the rules that can be read. -/
  filterOf : String → Filter
  allows : Filter → Event → Bool
  /-- No sink is installed. -/
  idle : Dispatch
  sink? : Dispatch → Option (LogSink Filter File)
  install : Dispatch → LogSink Filter File → Except String Dispatch

/-- The target of the forwarder's events begins with this name. -/
def crateTarget : String := "relay_sfu"

/-- The rule for the forwarder's own events of a level and graver ones. -/
def Level.directive (level : Level) : String := crateTarget ++ "=" ++ level.name

/-- What the operations of a host are documented to do. -/
structure LogHost.Lawful (host : LogHost) : Prop where
  /-- Nothing is lost or written when a file is opened. -/
  written_open {files files' : host.Files} {path : String} {file : host.File} :
    host.openFile files path = .ok (files', file) →
      ∀ other, host.written files' other = host.written files other
  written_append (files : host.Files) (file : host.File) (lines : List LogLine) :
    host.written (host.append files file lines) file = host.written files file ++ lines
  written_append_of_ne (files : host.Files) {file other : host.File} (lines : List LogLine) :
    other ≠ file → host.written (host.append files file lines) other = host.written files other
  /-- A rule for a target compares the level of an event below it with its own. -/
  allows_directive (level : Level) {e : Event} :
    crateTarget.toList <+: e.target.toList →
      host.allows (host.filterOf level.directive) e = decide (level.rank ≤ e.level.rank)
  sink?_idle : host.sink? host.idle = none
  /-- One sink can be installed. -/
  install_of_none {d : host.Dispatch} (sink : LogSink host.Filter host.File) :
    host.sink? d = none → ∃ d', host.install d sink = .ok d' ∧ host.sink? d' = some sink
  install_of_some {d : host.Dispatch} {sink : LogSink host.Filter host.File}
    (later : LogSink host.Filter host.File) :
    host.sink? d = some sink → ∃ cause, host.install d later = .error cause

end Renumber
