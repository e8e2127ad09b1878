import Renumber.Serial
import Renumber.Traced

/-! Bounded history of a value that changes along a circular key space. -/
namespace Renumber

/-- A closed run of keys with one value. Both ends belong to it. -/
structure Span (k v : Nat) where
  first : BitVec k
  last : BitVec k
  value : BitVec v
  deriving DecidableEq, Repr

/-- Closed spans, then an open range without end. A gap between two neighbours holds the keys that
were excluded there. -/
structure History (k v : Nat) where
  /-- How many closed spans are kept. -/
  capacity : Nat
  /-- Newest first. -/
  closed : List (Span k v)
  /-- Where the open range starts. -/
  start : BitVec k
  /-- The value of the open range. -/
  value : BitVec v
  deriving DecidableEq, Repr

namespace History

variable {k v : Nat}

/-- One open range from key 0 with value 0. At least one closed span is kept later. -/
def new (capacity : Nat) : History k v := ⟨max capacity 1, [], 0, 0⟩

/-- Forgets everything and starts over with one open range from key 0. -/
def reset (h : History k v) (value : BitVec v) : History k v :=
  { h with closed := [], start := 0, value := value }

/-- The number of ranges, the open one included. -/
def size (h : History k v) : Nat := h.closed.length + 1

/-- The start of the oldest range. -/
def oldestStart (h : History k v) : BitVec k := (h.closed.getLast?.map Span.first).getD h.start

/-- Keeps the newest closed spans. How many ranges are kept, the open one included, is counted in a
machine word. -/
def prune (h : History k v) : Traced (History k v) := do
  Traced.count (h.capacity + 1)
  let kept := { h with closed := h.closed.take h.capacity }
  let dropped := h.closed.length - h.capacity
  Traced.reportIf (0 < dropped) (.pruned dropped kept.oldestStart.toNat)
  pure kept

/-- Closes the open range before `stop` and opens the next one at `next`. -/
def split (h : History k v) (stop next : BitVec k) (value : BitVec v) : Traced (History k v) :=
  prune { h with closed := ⟨h.start, stop - 1, h.value⟩ :: h.closed, start := next, value := value }

/-- Lowers the value of the open range. -/
def lower (h : History k v) (delta : BitVec v) : History k v := { h with value := h.value - delta }

/-- Lowers the value of every key from `key` on. Earlier keys keep theirs. -/
def lowerFrom (h : History k v) (key : BitVec k) (delta : BitVec v) :
    Traced (Except HistoryError (History k v)) :=
  if Serial.precedes key h.start then pure (.error .reversed)
  else if key = h.start then pure (.ok (h.lower delta))
  else .ok <$> h.split key key (h.value - delta)

/-- Excludes the keys from `first` up to `stop`, which is not excluded itself. Every later key has
its value raised by the number of excluded keys. -/
def exclude (h : History k v) (first stop : BitVec k) :
    Traced (Except HistoryError (History k v)) :=
  let width := Serial.distance stop first
  let value := h.value + width.setWidth v
  if width = 0 || Serial.halfRange k ≤ width then pure (.error .reversed)
  else if Serial.precedes first h.start then pure (.error .reversed)
  else if first = h.start then pure (.ok { h with start := stop, value := value })
  else .ok <$> h.split first stop value

/-- The value of a key that precedes `next`, the start of the range after the given spans. The
newest reading of the key wins. -/
def getBefore (key next : BitVec k) : List (Span k v) → Except HistoryError (BitVec v)
  | [] => .error (if Serial.precedes key next then .tooOld else .notFound)
  | span :: older =>
    if Serial.strictlyBetween key span.last next then .error .excluded
    else if Serial.within key span.first span.last then .ok span.value
    else getBefore key span.first older

/-- The value of a key. -/
def get (h : History k v) (key : BitVec k) : Except HistoryError (BitVec v) :=
  if Serial.isOnOrAfter key h.start then .ok h.value else getBefore key h.start h.closed

/-- The value of a key. A key that matches nothing is reported. -/
def lookup (h : History k v) (key : BitVec k) : Traced (Except HistoryError (BitVec v)) := do
  let found := h.get key
  Traced.reportIf (found matches .error .notFound)
    (.unmatchedKey key.toNat h.oldestStart.toNat h.start.toNat h.size)
  pure found

@[simp] theorem value_lookup (h : History k v) (key : BitVec k) :
    (h.lookup key).value = h.get key := rfl

@[simp] theorem overflow_lookup (h : History k v) (key : BitVec k) :
    (h.lookup key).overflow = false := rfl

@[simp] theorem overflow_prune (h : History k v) :
    h.prune.overflow = decide (UInt64.size ≤ h.capacity + 1) := Bool.or_false _

@[simp] theorem overflow_split (h : History k v) (stop next : BitVec k) (value : BitVec v) :
    (h.split stop next value).overflow = decide (UInt64.size ≤ h.capacity + 1) := overflow_prune _

theorem get_of_isOnOrAfter {h : History k v} {key : BitVec k}
    (hk : Serial.isOnOrAfter key h.start) : h.get key = .ok h.value := by
  simp [get, hk]

theorem value_prune (h : History k v) :
    h.prune.value = { h with closed := h.closed.take h.capacity } := rfl

end History

end Renumber
