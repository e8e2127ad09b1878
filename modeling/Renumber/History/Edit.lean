import Renumber.History

/-! Edits of histories as data, and runs of them. -/
namespace Renumber.History

variable {k v : Nat}

/-- A change that is asked of a history. -/
inductive Edit (k v : Nat) where
  | exclude (first stop : BitVec k)
  | lower (delta : BitVec v)
  | lowerFrom (key : BitVec k) (delta : BitVec v)
  | reset (value : BitVec v)
  deriving DecidableEq, Repr

/-- The changed history, or the unchanged one and why the change is refused. -/
def keep (h : History k v) :
    Except HistoryError (History k v) → History k v × Except HistoryError Unit
  | .ok changed => (changed, .ok ())
  | .error e => (h, .error e)

/-- Makes an edit. A refused one changes nothing. -/
def apply (h : History k v) : Edit k v → Traced (History k v × Except HistoryError Unit)
  | .exclude first stop => h.keep <$> h.exclude first stop
  | .lower delta => pure (h.lower delta, .ok ())
  | .lowerFrom key delta => h.keep <$> h.lowerFrom key delta
  | .reset value => pure (h.reset value, .ok ())

/-- Makes edits in order. -/
def applyAll (h : History k v) :
    List (Edit k v) → Traced (History k v × List (Except HistoryError Unit))
  | [] => pure (h, [])
  | edit :: rest => do
    let (h, result) ← h.apply edit
    let (h, results) ← h.applyAll rest
    pure (h, result :: results)

end Renumber.History
