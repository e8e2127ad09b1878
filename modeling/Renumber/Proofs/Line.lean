import Renumber.History.Edit
import Mathlib.Algebra.Group.Int.Defs
import Mathlib.Data.Int.Notation
import Mathlib.Data.Nat.Notation

/-! A history laid out on the line of all integers, where neither keys nor values wrap. -/
namespace Renumber

/-- A closed run of integers with one value. Both ends belong to it. -/
structure Segment where
  first : ℤ
  last : ℤ
  value : ℤ
  deriving DecidableEq, Repr

/-- Closed segments, then an open one without end. -/
structure Line where
  capacity : ℕ
  /-- Newest first. -/
  closed : List Segment
  start : ℤ
  value : ℤ
  deriving DecidableEq, Repr

def History.after {k v : ℕ} (capacity : ℕ) (edits : List (Edit k v)) : History k v :=
  ((new capacity).applyAll edits).value.1

namespace Line

variable {k v : ℕ}

def new (capacity : ℕ) : Line := ⟨max capacity 1, [], 0, 0⟩

def reset (l : Line) (value : ℤ) : Line := { l with closed := [], start := 0, value := value }

/-- Closes the open segment before `stop`, if anything lies there, and opens the next one. -/
def advance (l : Line) (stop next value : ℤ) : Line :=
  if stop = l.start then { l with start := next, value := value }
  else
    { l with
      closed := (⟨l.start, stop - 1, l.value⟩ :: l.closed).take l.capacity
      start := next
      value := value }

/-- The first integer from the start of the open segment on that a key stands for. -/
def reading (l : Line) (key : BitVec k) : ℤ := l.start + (key.toNat - l.start) % 2 ^ k

/-- The key stands for an integer of the open segment that is less than half the key space away. -/
def Reaches (l : Line) (key : BitVec k) : Prop := l.reading key < l.start + 2 ^ (k - 1)

instance (l : Line) (key : BitVec k) : Decidable (l.Reaches key) :=
  inferInstanceAs (Decidable (_ < _))

/-- Makes an edit. A refused one changes nothing. -/
def apply (l : Line) : History.Edit k v → Line × Except HistoryError Unit
  | .exclude first stop =>
    let width : ℤ := (stop.toNat - first.toNat) % 2 ^ k
    if 0 < width ∧ width < 2 ^ (k - 1) ∧ l.Reaches first then
      (l.advance (l.reading first) (l.reading first + width) (l.value + width), .ok ())
    else (l, .error .reversed)
  | .lower delta => ({ l with value := l.value - delta.toNat }, .ok ())
  | .lowerFrom key delta =>
    if l.Reaches key then
      (l.advance (l.reading key) (l.reading key) (l.value - delta.toNat), .ok ())
    else (l, .error .reversed)
  | .reset value => (l.reset value.toNat, .ok ())

def applyAll (l : Line) : List (History.Edit k v) → Line × List (Except HistoryError Unit)
  | [] => (l, [])
  | edit :: rest =>
    let (l, result) := l.apply edit
    let (l, results) := l.applyAll rest
    (l, result :: results)

def after (capacity : ℕ) (edits : List (History.Edit k v)) : Line :=
  ((new capacity).applyAll edits).1

/-- The start of the oldest of the given segments, or `next` if there is none. -/
def oldestFrom (next : ℤ) (closed : List Segment) : ℤ :=
  (closed.getLast?.map Segment.first).getD next

def get (l : Line) (x : ℤ) : Except HistoryError ℤ :=
  if l.start ≤ x then .ok l.value
  else match l.closed.find? fun s => s.first ≤ x ∧ x ≤ s.last with
    | some s => .ok s.value
    | none => .error (if oldestFrom l.start l.closed ≤ x then .excluded else .tooOld)

/-- The integer stands for the key, and lies less than half the key space after the start of the
open segment or at most half the key space before it. -/
def Nearest (l : Line) (key : BitVec k) (x : ℤ) : Prop :=
  l.start - 2 ^ (k - 1) ≤ x ∧ x < l.start + 2 ^ (k - 1) ∧ BitVec.ofInt k x = key

/-- Between neighbours of the given segments, and up to `next`: the last integer before each gap
and the first one after it. -/
def gapsBefore (next : ℤ) : List Segment → List (ℤ × ℤ)
  | [] => []
  | s :: older => (s.last, next) :: gapsBefore s.first older

def gaps (l : Line) : List (ℤ × ℤ) := gapsBefore l.start l.closed

/-- The integer lies in the gap, and one end of the gap is half the key space away or more. -/
def Adrift (k : ℕ) (g : ℤ × ℤ) (x : ℤ) : Prop :=
  g.1 < x ∧ x < g.2 ∧ (2 ^ (k - 1) ≤ x - g.1 ∨ 2 ^ (k - 1) ≤ g.2 - x)

instance (k : ℕ) (g : ℤ × ℤ) (x : ℤ) : Decidable (Adrift k g x) :=
  inferInstanceAs (Decidable (_ ∧ _))

/-- The segments stand in order before `next`, and each is shorter than half the key space. -/
def Tiled (k : ℕ) (next : ℤ) : List Segment → Prop
  | [] => True
  | s :: older =>
    s.first ≤ s.last ∧ s.last + 2 ≤ s.first + 2 ^ (k - 1) ∧ s.last < next ∧ Tiled k s.first older

theorem Tiled.take {next : ℤ} {closed : List Segment} (h : Tiled k next closed) (n : ℕ) :
    Tiled k next (closed.take n) := by
  induction closed generalizing next n with
  | nil => simpa using h
  | cons s older ih =>
    cases n with
    | zero => trivial
    | succ n =>
      obtain ⟨hs, hlen, hnext, hold⟩ := h
      exact ⟨hs, hlen, hnext, ih hold n⟩

theorem Tiled.mono {next next' : ℤ} {closed : List Segment} (h : Tiled k next closed)
    (hle : next ≤ next') : Tiled k next' closed := by
  cases closed with
  | nil => trivial
  | cons s older =>
    obtain ⟨hs, hlen, hnext, hold⟩ := h
    exact ⟨hs, hlen, by omega, hold⟩

theorem Tiled.bounds {next : ℤ} {closed : List Segment} (h : Tiled k next closed) {s : Segment}
    (hs : s ∈ closed) : s.first ≤ s.last ∧ s.last + 2 ≤ s.first + 2 ^ (k - 1) := by
  induction closed generalizing next with
  | nil => cases hs
  | cons newest older ih =>
    obtain ⟨hle, hlen, -, hold⟩ := h
    rcases List.mem_cons.mp hs with rfl | hs
    · exact ⟨hle, hlen⟩
    · exact ih hold hs

theorem oldestFrom_cons (next : ℤ) (s : Segment) (older : List Segment) :
    oldestFrom next (s :: older) = oldestFrom s.first older := by
  cases h : older.getLast? <;> simp [oldestFrom, List.getLast?_cons, h]

/-- On the line every integer is found, left out or too old. -/
theorem get_eq_error {l : Line} {x : ℤ} {e : HistoryError} (h : l.get x = .error e) :
    e = .excluded ∨ e = .tooOld := by
  unfold get at h
  split at h
  · cases h
  split at h
  · cases h
  have he := Except.error.inj h
  split at he
  · exact Or.inl he.symm
  · exact Or.inr he.symm

theorem Tiled.oldestFrom_le {next : ℤ} {closed : List Segment} (h : Tiled k next closed) :
    oldestFrom next closed ≤ next := by
  induction closed generalizing next with
  | nil => exact Int.le_refl _
  | cons s older ih =>
    obtain ⟨hs, -, hnext, hold⟩ := h
    have := ih hold
    rw [oldestFrom_cons]
    omega

theorem Tiled.find?_eq_none {next x : ℤ} {closed : List Segment} (h : Tiled k next closed)
    (hx : next ≤ x) : (closed.find? fun s => s.first ≤ x ∧ x ≤ s.last) = none := by
  induction closed generalizing next with
  | nil => rfl
  | cons s older ih =>
    obtain ⟨hs, -, hnext, hold⟩ := h
    have hs' : ¬(s.first ≤ x ∧ x ≤ s.last) := by omega
    rw [List.find?_cons_of_neg (by simpa using hs')]
    exact ih hold (by omega)

theorem advance_capacity (l : Line) (stop next value : ℤ) :
    (l.advance stop next value).capacity = l.capacity := by
  unfold advance
  split <;> rfl

theorem closed_length_advance {l : Line} (h : l.closed.length ≤ l.capacity) (stop next value : ℤ) :
    (l.advance stop next value).closed.length ≤ l.capacity := by
  unfold advance
  split
  · exact h
  · exact List.length_take_le ..

theorem advance_start (l : Line) (stop next value : ℤ) :
    (l.advance stop next value).start = next := by
  unfold advance
  split <;> rfl

theorem advance_value (l : Line) (stop next value : ℤ) :
    (l.advance stop next value).value = value := by
  unfold advance
  split <;> rfl

/-- Whatever is closed and wherever the next segment opens, the segments stay in order. -/
theorem tiled_advance {l : Line} (h : Tiled k l.start l.closed) {stop next : ℤ} (value : ℤ)
    (hstop : l.start ≤ stop) (hreach : stop < l.start + 2 ^ (k - 1)) (hnext : stop ≤ next) :
    Tiled k (l.advance stop next value).start (l.advance stop next value).closed := by
  unfold advance
  split
  · exact h.mono (by simp only; omega)
  · refine Tiled.take ?_ _
    exact ⟨by simp only; omega, by simp only; omega, by simp only; omega, h⟩

theorem start_le_reading (l : Line) (key : BitVec k) : l.start ≤ l.reading key := by
  have hpos : (2 : ℤ) ^ k ≠ 0 := Int.pow_ne_zero (by decide)
  have hmod := Int.emod_nonneg (key.toNat - l.start) hpos
  unfold reading
  omega

theorem tiled_apply (l : Line) (h : Tiled k l.start l.closed) (edit : History.Edit k v) :
    Tiled k (l.apply edit).1.start (l.apply edit).1.closed := by
  cases edit with
  | exclude first stop =>
    simp only [apply]
    split
    · next hc =>
      obtain ⟨hw, -, hr⟩ := hc
      exact tiled_advance h _ (l.start_le_reading first) hr (by omega)
    · exact h
  | lower delta => exact h
  | lowerFrom key delta =>
    simp only [apply]
    split
    · next hr => exact tiled_advance h _ (l.start_le_reading key) hr (Int.le_refl _)
    · exact h
  | reset value => trivial

theorem tiled_applyAll (l : Line) (h : Tiled k l.start l.closed) (edits : List (History.Edit k v)) :
    Tiled k (l.applyAll edits).1.start (l.applyAll edits).1.closed := by
  induction edits generalizing l with
  | nil => exact h
  | cons edit rest ih => exact ih _ (tiled_apply l h edit)

theorem tiled_after (capacity : ℕ) (edits : List (History.Edit k v)) :
    Tiled k (after capacity edits).start (after capacity edits).closed :=
  tiled_applyAll (new capacity) trivial edits

end Line

end Renumber
