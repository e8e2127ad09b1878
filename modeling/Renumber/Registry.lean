import Renumber.Numbering
import Renumber.Settings

/-! The numberings of all forwarded tracks. -/
namespace Renumber

/-- Why the registry refuses a request. -/
inductive RegistryError where
  | limitReached
  | unknownTrack
  deriving DecidableEq, Repr

/-- The wording of the error. -/
def RegistryError.message : RegistryError → String
  | .limitReached => "Maximum number of forwarded streams reached"
  | .unknownTrack => "Stream not found"

/-- Names one numbering of a registry. It stays valid when the track is removed. -/
structure Handle where
  index : Nat
  deriving DecidableEq, Repr

/-- All numberings ever created, and which of them the tracks use now. -/
structure Registry where
  settings : Settings
  /-- The tracked tracks, in order of creation. -/
  tracks : List (TrackId × Handle) := []
  numberings : List Numbering := []
  deriving DecidableEq, Repr

namespace Registry

/-- A registry without tracks. -/
def new (settings : Settings) : Traced Registry := do
  Traced.report (.registryReady settings.sequenceHistory.toNat settings.maxStreams.toNat)
  pure { settings := settings }

/-- The numbering that a track uses. -/
def find? (r : Registry) (track : TrackId) : Option Handle := r.tracks.lookup track

/-- The number of tracked tracks. -/
def size (r : Registry) : Nat := r.tracks.length

/-- No further track may be added. -/
def isFull (r : Registry) : Bool :=
  0 < r.settings.maxStreams && r.settings.maxStreams.toNat ≤ r.size

/-- The numbering that a handle names. -/
def get? (r : Registry) (h : Handle) : Option Numbering := r.numberings[h.index]?

/-- Replaces the numbering that a handle names. -/
def set (r : Registry) (h : Handle) (n : Numbering) : Registry :=
  { r with numberings := r.numberings.set h.index n }

/-- Adds a track with a fresh numbering. -/
def create (r : Registry) (track : TrackId) : Registry × Handle :=
  let h : Handle := ⟨r.numberings.length⟩
  ({ r with
    tracks := r.tracks ++ [(track, h)]
    numberings := r.numberings ++ [.new r.settings.sequenceHistory.toNat] }, h)

/-- The numbering of a track, which is created on first use. -/
def getOrCreate (r : Registry) (track : TrackId) :
    Traced (Registry × Except RegistryError Handle) :=
  match r.find? track with
  | some h => pure (r, .ok h)
  | none =>
    if r.isFull then do
      Traced.report (.limitReached track r.size r.settings.maxStreams.toNat)
      pure (r, .error .limitReached)
    else do
      Traced.report (.created track)
      let (r, h) := r.create track
      pure (r, .ok h)

/-- Runs an operation on the numbering that a handle names. -/
def via {α : Type} (r : Registry) (h : Handle) (op : Numbering → Traced (Numbering × α)) :
    Traced (Registry × Option α) :=
  match r.get? h with
  | none => pure (r, none)
  | some n => (fun (n, a) => (r.set h n, some a)) <$> op n

/-- Renumbers a packet of a track. -/
def forward (r : Registry) (track : TrackId) (p : Packet) :
    Traced (Registry × Except RegistryError (Except Refusal Packet)) := do
  match ← r.getOrCreate track with
  | (r, .error e) => pure (r, .error e)
  | (r, .ok h) =>
    match ← r.via h (·.forward p) with
    | (r, none) => pure (r, .error .unknownTrack)
    | (r, some answer) =>
      match answer with
      | .error (.inconsistent cause) => Traced.report (.inconsistent track cause)
      | _ => pure ()
      pure (r, .ok answer)

/-- Lets the next packet of a track start its incoming numbers anew. -/
def restart (r : Registry) (track : TrackId) : Traced (Registry × Except RegistryError Unit) := do
  match r.find? track with
  | none => pure (r, .error .unknownTrack)
  | some h =>
    let (r, _) ← r.via h fun n => (·, ()) <$> n.restart
    Traced.report (.restarted track)
    pure (r, .ok ())

/-- Forgets a track, and tells whether it was tracked. -/
def remove (r : Registry) (track : TrackId) : Traced (Registry × Bool) :=
  match r.find? track with
  | none => pure (r, false)
  | some _ => do
    let r := { r with tracks := r.tracks.filter (·.1 != track) }
    Traced.report (.removed track r.size)
    pure (r, true)

/-- The counters of a track. -/
def stats? (r : Registry) (track : TrackId) : Option Stats :=
  (r.find? track).bind fun h => (r.get? h).map Numbering.stats

/-- The tracked tracks, ordered by name. -/
def trackIds (r : Registry) : List TrackId :=
  (r.tracks.map Prod.fst).mergeSort fun a b => a.name ≤ b.name

end Registry

end Renumber
