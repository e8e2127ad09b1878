import Renumber.Json.Library
import Renumber.Proofs.JsonText
import Renumber.Proofs.RecordParts

/-! What a library of JSON and the code that is derived from records are documented to do. -/
namespace Renumber

/-- A record is read from objects by the names of its parts and from arrays by their order. -/
structure Parts.ReadsJson {σ ε : Type} (P : Parts σ)
    (decode : (p : P.Part) → Json → Except ε (P.Value p)) (default : σ)
    (read : Json → Except ε σ) : Prop where
  obj : P.Derives decode default fun members => read (.obj members)
  arr : P.DerivesItems decode default fun items => read (.arr items)

/-- The members of the settings' object. -/
def LogSettings.members (c : LogSettings) : List (String × Json) :=
  [("level", .str c.level), ("format", .str c.format), ("file_path", .optStr c.filePath)]

/-- The members of the settings' object, with a value for those of logging. -/
def Settings.members (c : Settings) (logging : Json) : List (String × Json) := [
  ("sequence_history", .nat c.sequenceHistory.toNat), ("max_streams", .nat c.maxStreams.toNat),
  ("logging", logging)]

namespace JsonLibrary

variable (lib : JsonLibrary)

/-- How a part of the settings of logging is converted. -/
def readLogPart : (p : LogSettings.Part) → Json → Except lib.Error (LogSettings.parts.Value p)
  | .level | .format => lib.readText
  | .filePath => lib.readOptText

/-- How a part of the settings is converted. -/
def readPart : (p : Settings.Part) → Json → Except lib.Error (Settings.parts.Value p)
  | .sequenceHistory | .maxStreams => lib.readUInt64
  | .logging => lib.readLogging

/-- What the operations are documented to do. -/
structure Lawful : Prop where
  readUInt64_nat (n : UInt64) : lib.readUInt64 (.nat n.toNat) = .ok n
  readText_str (s : String) : lib.readText (.str s) = .ok s
  readOptText_optStr (s : Option String) : lib.readOptText (.optStr s) = .ok s
  /-- Absent parts have the defaults of their record, and unknown members are skipped. -/
  readLogging : LogSettings.parts.ReadsJson lib.readLogPart {} lib.readLogging
  readSettings : Settings.parts.ReadsJson lib.readPart {} lib.readSettings
  /-- All parts are written as they are declared. -/
  writeSettings_eq (c : Settings) : lib.writeSettings c = .obj (c.members (.obj c.logging.members))
  /-- What a value is read as, its text is read as, too. -/
  fromText_render {v : Json} {s : Settings} : v.Fits Json.maxDepth → lib.readSettings v = .ok s →
    lib.fromText (lib.render v) = some (.ok s)

end JsonLibrary

end Renumber
