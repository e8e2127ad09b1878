import Renumber.Logging.Host
import Renumber.Settings
import Renumber.Text.Lowercase
import Renumber.Traced

/-! Logging of a process: set up at most once, then written to. -/
namespace Renumber

/-- Why logging is not set up. -/
inductive LogError where
  | invalidLevel (level : String)
  /-- The format is given in lower case. -/
  | invalidFormat (format : String)
  | cannotOpen (cause : String)
  | notInstalled (cause : String)
  deriving DecidableEq, Repr

def LogError.message : LogError → String
  | .invalidLevel level => "Invalid log level: " ++ level
  | .invalidFormat format => "Invalid log format: " ++ format
  | .cannotOpen cause => cause
  | .notInstalled cause => cause

def Level.read (name : String) : Except LogError Level :=
  match Text.lower name with
  | "trace" => .ok .trace
  | "debug" => .ok .debug
  | "info" => .ok .info
  | "warn" | "warning" => .ok .warn
  | "error" => .ok .error
  | _ => .error (.invalidLevel name)

def LogFormat.read (name : String) : Except LogError LogFormat :=
  match Text.lower name with
  | "json" => .ok .json
  | "pretty" => .ok .pretty
  | other => .error (.invalidFormat other)

/-- The state of logging in a process. -/
structure LogSession (host : LogHost) where
  dispatch : host.Dispatch := host.idle
  files : host.Files

namespace LogSession

variable {host : LogHost}

/-- The sink in force. -/
def sink? (session : LogSession host) : Option (LogSink host.Filter host.File) :=
  host.sink? session.dispatch

/-- All lines that a file has taken. -/
def written (session : LogSession host) (file : host.File) : List LogLine :=
  host.written session.files file

def openTarget (files : host.Files) : Option String → Except String (host.Files × host.File)
  | none => .ok (files, host.output)
  | some path => host.openFile files path

/-- The filter in force: the given rules if they can be read, else the forwarder's own events at the
level of the settings. -/
def chooseFilter (host : LogHost) (rules : Option String) (level : Level) : host.Filter :=
  (rules.bind host.filter?).getD (host.filterOf level.directive)

/-- Sets up logging. The level, the format, the file and the place for the sink are checked in this
order. A file stays made even if the sink is not installed. -/
def init (session : LogSession host) (rules : Option String) (settings : LogSettings) :
    LogSession host × Except LogError Unit :=
  match Level.read settings.level, LogFormat.read settings.format with
  | .error e, _ => (session, .error e)
  | _, .error e => (session, .error e)
  | .ok level, .ok format =>
    match openTarget session.files settings.filePath with
    | .error cause => (session, .error (.cannotOpen cause))
    | .ok (files, target) =>
      match host.install session.dispatch ⟨chooseFilter host rules level, format, target⟩ with
      | .error cause => ({ session with files := files }, .error (.notInstalled cause))
      | .ok dispatch => (⟨dispatch, files⟩, .ok ())

def initAll (session : LogSession host) (rules : Option String) :
    List LogSettings → LogSession host × List (Except LogError Unit)
  | [] => (session, [])
  | settings :: rest =>
    let (session, result) := session.init rules settings
    let (session, results) := session.initAll rules rest
    (session, result :: results)

/-- Writes the events that the sink in force lets through. -/
def write (session : LogSession host) (events : List Event) : LogSession host :=
  match session.sink? with
  | none => session
  | some sink =>
    let lines := (events.filter (host.allows sink.filter)).map (LogLine.record sink.format)
    { session with files := host.append session.files sink.target lines }

def record {α : Type} (session : LogSession host) (x : Traced α) : LogSession host × α :=
  (session.write x.events, x.value)

end LogSession

end Renumber
