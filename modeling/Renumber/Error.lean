/-! Reasons why an edit, a look-up or a packet is refused. -/
namespace Renumber

/-- Why a history refuses an edit or has no value for a key. -/
inductive HistoryError where
  /-- The keys are empty, span half the space or more, or start before the open range. -/
  | reversed
  /-- The key precedes the retained history. -/
  | tooOld
  /-- The key lies in a gap between two retained ranges. -/
  | excluded
  /-- No range and no gap holds the key. -/
  | notFound
  deriving DecidableEq, Repr

/-- The wording of the error. -/
def HistoryError.message : HistoryError → String
  | .reversed => "end <= start"
  | .tooOld => "key too old"
  | .excluded => "key excluded"
  | .notFound => "key not found"

/-- Why a packet is not forwarded. -/
inductive Refusal where
  /-- A packet of padding alone, left out of the forwarded stream. -/
  | paddingDropped
  /-- The number lies before zero when extended. -/
  | beforeStart (sequenceNumber : BitVec 16)
  /-- The packet repeats the newest one. -/
  | duplicate (extended : BitVec 64)
  /-- A late packet whose number was left out of the forwarded stream. -/
  | excluded (extended : BitVec 64)
  /-- A late packet from before the retained history. -/
  | tooOld (extended : BitVec 64)
  /-- The history of offsets refused what the numbering asked of it. -/
  | inconsistent (cause : HistoryError)
  deriving DecidableEq, Repr

/-- The wording of the refusal. -/
def Refusal.message : Refusal → String
  | .paddingDropped => "padding-only packet dropped"
  | .beforeStart n => s!"sequence number {n.toNat} unwraps before the start of the stream"
  | .duplicate n => s!"sequence number {n.toNat} repeats the head of the stream"
  | .excluded n => s!"sequence number {n.toNat} was excluded from the forwarded stream"
  | .tooOld n => s!"sequence number {n.toNat} is older than the retained history"
  | .inconsistent cause => s!"sequence map inconsistent: {cause.message}"

end Renumber
