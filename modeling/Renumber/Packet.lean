/-! Packets as the forwarder sees them. -/
namespace Renumber

/-- A media packet: the header fields that matter for forwarding, its payload and when it came. -/
structure Packet where
  ssrc : BitVec 32
  sequenceNumber : BitVec 16
  timestamp : BitVec 32
  payload : List UInt8
  /-- A reading of the clock. -/
  receivedAt : Nat
  deriving DecidableEq, Repr

/-- The packet carries nothing but padding. -/
def Packet.isPaddingOnly (p : Packet) : Bool := p.payload.isEmpty

/-- The same packet under another sequence number. -/
def Packet.withSequenceNumber (p : Packet) (n : BitVec 16) : Packet :=
  { p with sequenceNumber := n }

end Renumber
