import Renumber.Json.Library
import Renumber.Json.Reader
import Renumber.Json.Record
import Renumber.Json.Writer
import Renumber.Stats
import Renumber.Track

/-! JSON forms of settings, counters and track names. -/
namespace Renumber

open Json (ReadError)

def LogSettings.toJson (s : LogSettings) : Json :=
  .obj [("level", .str s.level), ("format", .str s.format), ("file_path", .optStr s.filePath)]

def LogSettings.fields : List (Json.Field LogSettings) := [
  ⟨"level", fun s v => (fun level => { s with level := level }) <$> Json.readText v⟩,
  ⟨"format", fun s v => (fun format => { s with format := format }) <$> Json.readText v⟩,
  ⟨"file_path", fun s v => (fun path => { s with filePath := path }) <$> Json.readOptText v⟩]

/-- Reads settings of logging. What is absent keeps its default. -/
def LogSettings.ofJson : Json → Except ReadError LogSettings :=
  Json.readPartial "struct LoggingConfig" LogSettings.fields {}

def Settings.toJson (s : Settings) : Json :=
  .obj [
    ("sequence_history", .nat s.sequenceHistory.toNat),
    ("max_streams", .nat s.maxStreams.toNat),
    ("logging", s.logging.toJson)]

def Settings.fields : List (Json.Field Settings) := [
  ⟨"sequence_history", fun s v =>
    (fun n => { s with sequenceHistory := n }) <$> Json.readUInt64 "usize" v⟩,
  ⟨"max_streams", fun s v => (fun n => { s with maxStreams := n }) <$> Json.readUInt64 "usize" v⟩,
  ⟨"logging", fun s v => (fun l => { s with logging := l }) <$> LogSettings.ofJson v⟩]

/-- Reads settings. What is absent keeps its default. -/
def Settings.ofJson : Json → Except ReadError Settings :=
  Json.readPartial "struct ForwarderConfig" Settings.fields {}

/-- The library of JSON values and records. -/
def JsonLibrary.builtin : JsonLibrary where
  Error := ReadError
  readUInt64 := Json.readUInt64 "usize"
  readText := Json.readText
  readOptText := Json.readOptText
  readLogging := LogSettings.ofJson
  readSettings := Settings.ofJson
  writeSettings := Settings.toJson
  render := Json.render
  fromText text := (Json.parse? text).map Settings.ofJson

def Stats.toJson (s : Stats) : Json :=
  .obj [
    ("packets_forwarded", .nat s.forwarded.toNat),
    ("packets_out_of_order", .nat s.outOfOrder.toNat),
    ("padding_dropped", .nat s.paddingDropped.toNat),
    ("padding_injected", .nat s.paddingInjected.toNat),
    ("packets_rejected", .nat s.rejected.toNat),
    ("packets_duplicate", .nat s.duplicate.toNat),
    ("restarts", .nat s.restarts.toNat)]

def Stats.fields : List (Json.Field Stats) :=
  let counter (name : String) (set : Stats → UInt64 → Stats) : Json.Field Stats :=
    ⟨name, fun s v => set s <$> Json.readUInt64 "u64" v⟩
  [ counter "packets_forwarded" fun s n => { s with forwarded := n },
    counter "packets_out_of_order" fun s n => { s with outOfOrder := n },
    counter "padding_dropped" fun s n => { s with paddingDropped := n },
    counter "padding_injected" fun s n => { s with paddingInjected := n },
    counter "packets_rejected" fun s n => { s with rejected := n },
    counter "packets_duplicate" fun s n => { s with duplicate := n },
    counter "restarts" fun s n => { s with restarts := n }]

/-- Reads counters. All of them are required. -/
def Stats.ofJson : Json → Except ReadError Stats :=
  Json.readComplete "struct MungerStats" Stats.fields {}

def TrackId.toJson (t : TrackId) : Json := .str t.name

def TrackId.ofJson (v : Json) : Except ReadError TrackId := TrackId.mk <$> Json.readText v

end Renumber
