import Renumber.Error
import Renumber.Track

/-! Events that the forwarder reports while it works. -/
namespace Renumber

/-- Severity of an event, from the chattiest to the gravest. -/
inductive Level where
  | trace
  | debug
  | info
  | warn
  | error
  deriving DecidableEq, Repr

/-- Graver events have the higher rank. -/
def Level.rank : Level → Nat
  | .trace => 0
  | .debug => 1
  | .info => 2
  | .warn => 3
  | .error => 4

def Level.name : Level → String
  | .trace => "trace"
  | .debug => "debug"
  | .info => "info"
  | .warn => "warn"
  | .error => "error"

def Level.label : Level → String
  | .trace => "TRACE"
  | .debug => "DEBUG"
  | .info => "INFO"
  | .warn => "WARN"
  | .error => "ERROR"

/-- The value of an event's field. -/
inductive FieldValue where
  | number (n : Nat)
  | text (s : String)
  deriving DecidableEq, Repr

/-- Everything that the forwarder reports. -/
inductive Event where
  /-- A key of a history is in no range and in no gap. -/
  | unmatchedKey (key oldestStart openStart ranges : Nat)
  /-- A history forgot its oldest ranges. -/
  | pruned (dropped oldestStart : Nat)
  /-- A late packet comes from before the retained history. -/
  | lateBeyondHistory (ssrc : BitVec 32) (sequenceNumber : BitVec 16) (extended : BitVec 64)
  /-- The source of a numbering starts anew. -/
  | restartRequested (ssrc : Option (BitVec 32)) (lastOutgoing : Option (BitVec 64))
  /-- A numbering continues under a new offset. -/
  | rebased (extended offset : BitVec 64)
  | registryReady (sequenceHistory maxStreams : Nat)
  | limitReached (track : TrackId) (currentStreams maxStreams : Nat)
  | created (track : TrackId)
  | inconsistent (track : TrackId) (cause : HistoryError)
  | restarted (track : TrackId)
  | removed (track : TrackId) (remaining : Nat)
  deriving DecidableEq, Repr

namespace Event

def level : Event → Level
  | unmatchedKey .. => .error
  | pruned .. => .trace
  | lateBeyondHistory .. => .debug
  | restartRequested .. => .debug
  | rebased .. => .debug
  | registryReady .. => .info
  | limitReached .. => .warn
  | created .. => .debug
  | inconsistent .. => .warn
  | restarted .. => .info
  | removed .. => .debug

/-- The name of the component that reports the event. Filters select events by it. -/
def target : Event → String
  | unmatchedKey .. | pruned .. => "relay_sfu::range_map"
  | lateBeyondHistory .. | restartRequested .. | rebased .. => "relay_sfu::munger"
  | registryReady .. | limitReached .. | created .. | inconsistent .. | restarted .. | removed .. =>
    "relay_sfu::registry"

def message : Event → String
  | unmatchedKey .. => "Key matched neither a range nor a gap"
  | pruned .. => "Pruned closed ranges"
  | lateBeyondHistory .. => "Late packet older than retained history"
  | restartRequested .. => "Sequence munger restart requested"
  | rebased .. => "Sequence munger re-based"
  | registryReady .. => "Stream registry initialized"
  | limitReached .. => "Stream limit reached"
  | created .. => "Created sequence munger"
  | inconsistent .. => "Sequence map inconsistent"
  | restarted .. => "Restarted stream"
  | removed .. => "Removed stream"

private def optionText : Option Nat → FieldValue
  | some n => .text s!"Some({n})"
  | none => .text "None"

private def keyText (n : Nat) : FieldValue := .text (toString n)

/-- The fields of the event, in the order in which a line of text shows them. -/
def fields : Event → List (String × FieldValue)
  | unmatchedKey key oldestStart openStart ranges =>
    [("key", keyText key), ("oldest_start", keyText oldestStart), ("open_start", keyText openStart),
      ("ranges", .number ranges)]
  | pruned dropped oldestStart =>
    [("dropped", .number dropped), ("oldest_start", keyText oldestStart)]
  | lateBeyondHistory ssrc sequenceNumber extended =>
    [("ssrc", .number ssrc.toNat), ("sequence_number", .number sequenceNumber.toNat),
      ("extended", .number extended.toNat)]
  | restartRequested ssrc lastOutgoing =>
    [("ssrc", optionText (ssrc.map (·.toNat))),
      ("last_outgoing", optionText (lastOutgoing.map (·.toNat)))]
  | rebased extended offset =>
    [("extended", .number extended.toNat), ("offset", .number offset.toNat)]
  | registryReady sequenceHistory maxStreams =>
    [("sequence_history", .number sequenceHistory), ("max_streams", .number maxStreams)]
  | limitReached track currentStreams maxStreams =>
    [("track_id", .text track.name), ("current_streams", .number currentStreams),
      ("max_streams", .number maxStreams)]
  | created track => [("track_id", .text track.name)]
  | inconsistent track cause => [("track_id", .text track.name), ("error", .text cause.message)]
  | restarted track => [("track_id", .text track.name)]
  | removed track remaining => [("track_id", .text track.name), ("remaining", .number remaining)]

end Event

end Renumber
