import Renumber.Numbering.Request
import Renumber.Registry

/-! Requests to registries as data, and runs of them. -/
namespace Renumber.Registry

/-- What is asked of a registry. -/
inductive Request where
  | getOrCreate (track : TrackId)
  | forward (track : TrackId) (p : Packet)
  | restart (track : TrackId)
  | remove (track : TrackId)
  /-- A request to the numbering that a handle names. -/
  | via (handle : Handle) (request : Numbering.Request)
  deriving DecidableEq, Repr

/-- The reply to a request. -/
inductive Reply where
  | handle (answer : Except RegistryError Handle)
  | forwarded (answer : Except RegistryError (Except Refusal Packet))
  | restarted (answer : Except RegistryError Unit)
  | removed (wasTracked : Bool)
  /-- A handle of another registry has no reply. -/
  | via (answer : Option Numbering.Reply)

/-- Serves a request. -/
def serve (r : Registry) : Request → Traced (Registry × Reply)
  | .getOrCreate track => (fun (r, answer) => (r, .handle answer)) <$> r.getOrCreate track
  | .forward track p => (fun (r, answer) => (r, .forwarded answer)) <$> r.forward track p
  | .restart track => (fun (r, answer) => (r, .restarted answer)) <$> r.restart track
  | .remove track => (fun (r, wasTracked) => (r, .removed wasTracked)) <$> r.remove track
  | .via handle request => (fun (r, answer) => (r, .via answer)) <$> r.via handle (·.serve request)

/-- Serves requests in order. -/
def serveAll (r : Registry) : List Request → Traced (Registry × List Reply)
  | [] => pure (r, [])
  | request :: rest => do
    let (r, reply) ← r.serve request
    let (r, replies) ← r.serveAll rest
    pure (r, reply :: replies)

end Renumber.Registry
