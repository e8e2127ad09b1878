import Renumber.History.Request
import Renumber.Logging.Session
import Renumber.Registry.Request

/-! Any number of histories, numberings and registries side by side, and runs across them with and
without logging. -/
namespace Renumber

/-- What can be asked on its own: a history with its widths of keys and values, a numbering or a
registry. -/
inductive Part where
  | history (k v : Nat)
  | numbering
  | registry
  deriving DecidableEq, Repr

namespace Part

def State : Part → Type
  | history k v => History k v
  | numbering => Numbering
  | registry => Registry

/-- What is asked of a part: to be replaced by a new one, or to serve a request. -/
inductive Request : Part → Type where
  | newHistory {k v : Nat} (capacity : Nat) : Request (.history k v)
  | newNumbering (size : Nat) : Request .numbering
  | newRegistry (settings : Settings) : Request .registry
  | history {k v : Nat} (request : History.Request k v) : Request (.history k v)
  | numbering (request : Numbering.Request) : Request .numbering
  | registry (request : Registry.Request) : Request .registry

/-- The reply to a request. -/
inductive Reply : Part → Type where
  | made {part : Part} : Reply part
  | history {k v : Nat} (reply : History.Reply v) : Reply (.history k v)
  | numbering (reply : Numbering.Reply) : Reply .numbering
  | registry (reply : Registry.Reply) : Reply .registry

/-- Serves a request. -/
def serve {part : Part} (state : part.State) : part.Request → Traced (part.State × part.Reply)
  | .newHistory capacity => pure (History.new capacity, .made)
  | .newNumbering size => pure (Numbering.new size, .made)
  | .newRegistry settings => (·, .made) <$> Registry.new settings
  | .history request => (fun (h, reply) => (h, .history reply)) <$> History.serve state request
  | .numbering request =>
    (fun (n, reply) => (n, .numbering reply)) <$> Numbering.serve state request
  | .registry request => (fun (r, reply) => (r, .registry reply)) <$> Registry.serve state request

end Part

/-- The states of all parts. -/
def Ensemble {ι : Type} (parts : ι → Part) : Type := (i : ι) → (parts i).State

namespace Ensemble

variable {ι : Type} [DecidableEq ι] {parts : ι → Part}

/-- What is asked of one of the parts. -/
def Operation (parts : ι → Part) : Type := (i : ι) × (parts i).Request

/-- The part that was asked, and its reply. -/
def Answer (parts : ι → Part) : Type := (i : ι) × (parts i).Reply

def set (w : Ensemble parts) (i : ι) (state : (parts i).State) : Ensemble parts :=
  fun j => if h : j = i then h ▸ state else w j

def operate (w : Ensemble parts) (op : Operation parts) : Traced (Ensemble parts × Answer parts) :=
  (fun (state, reply) => (w.set op.1 state, ⟨op.1, reply⟩)) <$> Part.serve (w op.1) op.2

/-- Carries out operations in order. -/
def operateAll (w : Ensemble parts) :
    List (Operation parts) → Traced (Ensemble parts × List (Answer parts))
  | [] => pure (w, [])
  | op :: rest => do
    let (w, answer) ← w.operate op
    let (w, answers) ← w.operateAll rest
    pure (w, answer :: answers)

/-- Carries out operations in order in a process with logging, which writes the events of each one
before the next. -/
def recordAll {host : LogHost} (w : Ensemble parts) (session : LogSession host) :
    List (Operation parts) → LogSession host × Ensemble parts × List (Answer parts)
  | [] => (session, w, [])
  | op :: rest =>
    let (session, w, answer) := session.record (w.operate op)
    let (session, w, answers) := w.recordAll session rest
    (session, w, answer :: answers)

end Ensemble

end Renumber
