import Renumber.History.Edit

/-! Requests to histories as data, and runs of them. -/
namespace Renumber.History

variable {k v : Nat}

/-- What is asked of a history: to change, or to tell the value of a key. -/
inductive Request (k v : Nat) where
  | edit (edit : Edit k v)
  | lookup (key : BitVec k)
  deriving DecidableEq, Repr

/-- The reply to a request. -/
inductive Reply (v : Nat) where
  | edited (result : Except HistoryError Unit)
  | found (result : Except HistoryError (BitVec v))

/-- Serves a request. -/
def serve (h : History k v) : Request k v → Traced (History k v × Reply v)
  | .edit edit => (fun (h, result) => (h, .edited result)) <$> h.apply edit
  | .lookup key => (fun result => (h, .found result)) <$> h.lookup key

/-- Serves requests in order. -/
def serveAll (h : History k v) : List (Request k v) → Traced (History k v × List (Reply v))
  | [] => pure (h, [])
  | request :: rest => do
    let (h, reply) ← h.serve request
    let (h, replies) ← h.serveAll rest
    pure (h, reply :: replies)

end Renumber.History
