/-! Counters of one numbering. -/
namespace Renumber

/-- What became of the packets of one stream. -/
structure Stats where
  /-- Packets forwarded under a new number. -/
  forwarded : UInt64 := 0
  /-- Forwarded packets that arrived behind the newest one. -/
  outOfOrder : UInt64 := 0
  /-- Packets of padding alone that were left out. -/
  paddingDropped : UInt64 := 0
  /-- Numbers reserved for padding of the forwarder's own. -/
  paddingInjected : UInt64 := 0
  /-- Packets refused because they were excluded or too old. -/
  rejected : UInt64 := 0
  /-- Repeats of the newest packet. -/
  duplicate : UInt64 := 0
  /-- How often the source started anew. -/
  restarts : UInt64 := 0
  deriving DecidableEq, Repr

/-- Nothing was counted yet. -/
def Stats.isZero (s : Stats) : Bool := s = {}

end Renumber
