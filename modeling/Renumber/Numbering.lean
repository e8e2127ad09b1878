import Renumber.History
import Renumber.Packet
import Renumber.Stats
import Renumber.Unwrapper

/-! Gap-free renumbering of the packets of one track. -/
namespace Renumber

/-- The state of one track: which numbers came in, and how far outgoing numbers lag behind them. -/
structure Numbering where
  /-- Extended incoming number to incoming minus outgoing number. -/
  offsets : History 64 64
  unwrapper : Unwrapper := {}
  /-- The source of the last packet. -/
  ssrc : Option (BitVec 32) := none
  /-- The highest extended incoming number of the current source. -/
  head : Option (BitVec 64) := none
  /-- The last extended number handed out at the head. -/
  lastOutgoing : Option (BitVec 64) := none
  restartPending : Bool := false
  stats : Stats := {}
  deriving DecidableEq, Repr

/-- A packet's place: its extended number in the incoming and in the outgoing stream. -/
structure Placement where
  incoming : BitVec 64
  outgoing : BitVec 64
  deriving DecidableEq, Repr

namespace Numbering

/-- A numbering that remembers `history` changes of its offset. -/
def new (history : Nat) : Numbering := { offsets := .new history }

/-- Lets the next packet start the incoming numbers anew. Outgoing numbers go on. -/
def restart (n : Numbering) : Traced Numbering := do
  Traced.report (.restartRequested n.ssrc n.lastOutgoing)
  pure { n with restartPending := true }

/-- Takes the source of a packet. Another source than the last one is a restart. -/
def follow (n : Numbering) (ssrc : BitVec 32) : Traced Numbering := do
  let n ← if n.ssrc.any (· != ssrc) then n.restart else pure n
  pure { n with ssrc := some ssrc }

/-- The number that the next packet at the head would get, if any was handed out before. -/
def nextOutgoing (n : Numbering) : Traced (Except HistoryError (Option (BitVec 64))) :=
  match n.head with
  | some head => do
    let offset ← n.offsets.lookup (head + 1)
    pure (offset.map fun o => some (head + 1 - o))
  | none => pure (.ok (n.lastOutgoing.map (· + 1)))

/-- Starts the offsets anew so that the incoming number continues the outgoing ones. -/
def rebase (n : Numbering) (extended : BitVec 64) : Traced (Except HistoryError Numbering) := do
  match ← n.nextOutgoing with
  | .error e => pure (.error e)
  | .ok next =>
    let offset := (next.map (extended - ·)).getD 0
    Traced.report (.rebased extended offset)
    pure (.ok { n with
      offsets := n.offsets.reset offset
      head := none
      restartPending := false
      stats := { n.stats with restarts := n.stats.restarts + 1 } })

private def reject (n : Numbering) : Numbering :=
  { n with stats := { n.stats with rejected := n.stats.rejected + 1 } }

/-- Places a packet that arrives behind the head, by the offset in effect at its number. -/
def placeLate (n : Numbering) (ssrc : BitVec 32) (sequenceNumber : BitVec 16)
    (extended : BitVec 64) : Traced (Numbering × Except Refusal Placement) := do
  match ← n.offsets.lookup extended with
  | .ok offset =>
    let stats := { n.stats with
      forwarded := n.stats.forwarded + 1
      outOfOrder := n.stats.outOfOrder + 1 }
    pure ({ n with stats := stats }, .ok ⟨extended, extended - offset⟩)
  | .error .excluded => pure (n.reject, .error (.excluded extended))
  | .error .tooOld =>
    Traced.report (.lateBeyondHistory ssrc sequenceNumber extended)
    pure (n.reject, .error (.tooOld extended))
  | .error e => pure (n, .error (.inconsistent e))

/-- Leaves out the number of a packet of padding alone, which has become the head. -/
def dropPadding (n : Numbering) (extended : BitVec 64) :
    Traced (Numbering × Except Refusal Placement) := do
  match ← n.offsets.exclude extended (extended + 1) with
  | .error e => pure (n, .error (.inconsistent e))
  | .ok offsets =>
    let stats := { n.stats with paddingDropped := n.stats.paddingDropped + 1 }
    pure ({ n with offsets := offsets, stats := stats }, .error .paddingDropped)

/-- Places a packet that has become the head. -/
def placeHead (n : Numbering) (extended : BitVec 64) :
    Traced (Numbering × Except Refusal Placement) := do
  match ← n.offsets.lookup extended with
  | .error e => pure (n, .error (.inconsistent e))
  | .ok offset =>
    let outgoing := extended - offset
    let stats := { n.stats with forwarded := n.stats.forwarded + 1 }
    pure ({ n with lastOutgoing := some outgoing, stats := stats }, .ok ⟨extended, outgoing⟩)

/-- Places a packet by its extended number: a repeat of the head, a late packet or a new head. -/
def place (n : Numbering) (p : Packet) (extended : BitVec 64) :
    Traced (Numbering × Except Refusal Placement) :=
  if n.head = some extended then
    let stats := { n.stats with duplicate := n.stats.duplicate + 1 }
    pure ({ n with stats := stats }, .error (.duplicate extended))
  else if n.head.any (extended < ·) then n.placeLate p.ssrc p.sequenceNumber extended
  else if p.isPaddingOnly then dropPadding { n with head := some extended } extended
  else placeHead { n with head := some extended } extended

/-- Places an incoming packet in the outgoing stream, or says why it is not forwarded. -/
def receive (n : Numbering) (p : Packet) : Traced (Numbering × Except Refusal Placement) := do
  let n ← n.follow p.ssrc
  let unwrapper := if n.restartPending then {} else n.unwrapper
  match unwrapper.extend p.sequenceNumber with
  | (none, unwrapper) =>
    pure (reject { n with unwrapper := unwrapper }, .error (.beforeStart p.sequenceNumber))
  | (some extended, unwrapper) =>
    let n := { n with unwrapper := unwrapper }
    if n.restartPending then
      match ← n.rebase extended with
      | .error e => pure (n, .error (.inconsistent e))
      | .ok n => n.place p extended
    else n.place p extended

/-- Renumbers an incoming packet, or says why it is not forwarded. -/
def forward (n : Numbering) (p : Packet) : Traced (Numbering × Except Refusal Packet) :=
  (fun (n, placed) =>
    (n, placed.map fun spot => p.withSequenceNumber (spot.outgoing.setWidth 16))) <$> n.receive p

/-- Reserves extended outgoing numbers right after the head. Before the first packet there are none
to reserve. -/
def reserve (n : Numbering) (count : BitVec 16) :
    Traced (Numbering × Except HistoryError (List (BitVec 64))) := do
  match ← n.nextOutgoing with
  | .error e => pure (n, .error e)
  | .ok none => pure (n, .ok [])
  | .ok (some next) =>
    if count = 0 then pure (n, .ok [])
    else
      let wide := count.setWidth 64
      let shifted ← match n.head with
        | some head => n.offsets.lowerFrom (head + 1) wide
        | none => pure (.ok (n.offsets.lower wide))
      match shifted with
      | .error e => pure (n, .error e)
      | .ok offsets =>
        let numbers := (List.range count.toNat).map fun i => next + BitVec.ofNat 64 i
        let stats := { n.stats with
          paddingInjected := n.stats.paddingInjected + UInt64.ofNat count.toNat }
        pure ({ n with
          offsets := offsets
          lastOutgoing := some (next + (wide - 1))
          stats := stats }, .ok numbers)

/-- Reserves numbers for padding of the forwarder's own, as subscribers see them. -/
def injectPadding (n : Numbering) (count : BitVec 16) :
    Traced (Numbering × Except Refusal (List (BitVec 16))) :=
  (fun (n, reserved) => (n, match reserved with
    | .ok numbers => .ok (numbers.map (·.setWidth 16))
    | .error e => .error (.inconsistent e))) <$> n.reserve count

end Numbering

end Renumber
