import Renumber.Numbering

/-! Requests to numberings as data, and runs of them. -/
namespace Renumber.Numbering

/-- What is asked of a numbering. -/
inductive Request where
  | forward (p : Packet)
  | inject (count : BitVec 16)
  | restart
  deriving DecidableEq, Repr

/-- The reply to a request. -/
inductive Reply where
  | forwarded (answer : Except Refusal Packet)
  | injected (answer : Except Refusal (List (BitVec 16)))
  | restarted

/-- Serves a request. -/
def serve (n : Numbering) : Request → Traced (Numbering × Reply)
  | .forward p => (fun (n, answer) => (n, .forwarded answer)) <$> n.forward p
  | .inject count => (fun (n, answer) => (n, .injected answer)) <$> n.injectPadding count
  | .restart => (·, .restarted) <$> n.restart

/-- Serves requests in order. -/
def serveAll (n : Numbering) : List Request → Traced (Numbering × List Reply)
  | [] => pure (n, [])
  | request :: rest => do
    let (n, reply) ← n.serve request
    let (n, replies) ← n.serveAll rest
    pure (n, reply :: replies)

end Renumber.Numbering
