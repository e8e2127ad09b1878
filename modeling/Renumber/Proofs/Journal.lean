import Renumber.Proofs.Exclusion
import Mathlib.Data.BitVec
import Mathlib.Tactic.LinearCombination
import Mathlib.Tactic.Ring

/-! What the values of a history add up to. A journal of the accepted edits since the last reset
tells the value of the open range, and by how much the value changes from each range to the next. -/
namespace Renumber.History

variable {k v : ℕ}

namespace Edit

/-- How many keys an exclusion leaves out. -/
def width : Edit k v → BitVec v
  | exclude first stop => (Serial.distance stop first).setWidth v
  | _ => 0

/-- By how much an adjustment lowers the value. -/
def delta : Edit k v → BitVec v
  | lower delta | lowerFrom _ delta => delta
  | _ => 0

/-- Where the edit closes the open range, unless it changes all of that range in place. -/
def cut (h : History k v) : Edit k v → Option (BitVec k)
  | exclude first _ => if first = h.start then none else some first
  | lowerFrom key _ => if key = h.start then none else some key
  | _ => none

def isReset : Edit k v → Bool
  | reset _ => true
  | _ => false

end Edit

/-- By how much the exclusions raise the value. -/
def raised (edits : List (Edit k v)) : BitVec v := (edits.map Edit.width).sum

/-- By how much the adjustments lower it. -/
def lowered (edits : List (Edit k v)) : BitVec v := (edits.map Edit.delta).sum

/-- A closed range, and the accepted edits from the one that closed it on, until the next range was
closed. -/
structure Chapter (k v : ℕ) where
  span : Span k v
  edits : List (Edit k v)
  deriving DecidableEq, Repr

structure Journal (k v : ℕ) where
  /-- The value of the last reset. -/
  base : BitVec v := 0
  /-- The accepted edits since. -/
  edits : List (Edit k v) := []
  /-- Newest first. -/
  chapters : List (Chapter k v) := []
  deriving DecidableEq, Repr

def Chapter.note (edit : Edit k v) (c : Chapter k v) : Chapter k v :=
  { c with edits := c.edits ++ [edit] }

/-- Enters an edit that the history accepts and that is no reset. -/
def Journal.enter (j : Journal k v) (h : History k v) (edit : Edit k v) : Journal k v :=
  { j with
    edits := j.edits ++ [edit]
    chapters := match edit.cut h with
      | some stop => ⟨⟨h.start, stop - 1, h.value⟩, [edit]⟩ :: j.chapters
      | none => j.chapters.modifyHead (·.note edit) }

/-- Enters an edit, which a history with this journal accepts or refuses. -/
def Journal.add (j : Journal k v) (h : History k v) (edit : Edit k v) : Journal k v :=
  match (h.apply edit).value.2, edit with
  | .error _, _ => j
  | .ok (), .reset value => { base := value }
  | .ok (), edit => j.enter h edit

def record (h : History k v) (j : Journal k v) : List (Edit k v) → Journal k v
  | [] => j
  | edit :: rest => record (h.apply edit).value.1 (j.add h edit) rest

def journal (capacity : ℕ) (edits : List (Edit k v)) : Journal k v :=
  (new capacity).record {} edits

/-- From the range of the chapter to the next one, the value grows by the number of keys between
them, less what was taken off meanwhile. If that is nothing, key less value goes on without a jump.
All this holds as far as keys and values both reach. -/
structure Chapter.LeadsTo (c : Chapter k v) (start : BitVec k) (value : BitVec v) : Prop where
  step : (value - c.span.value + lowered c.edits).setWidth (min k v) =
    (start - c.span.last - 1).setWidth (min k v)
  level : lowered c.edits = 0 →
    start.setWidth (min k v) - value.setWidth (min k v) =
      (c.span.last + 1).setWidth (min k v) - c.span.value.setWidth (min k v)

/-- Each chapter leads to the next one, and the newest one to the range with the given start and
value. -/
def Continuous (start : BitVec k) (value : BitVec v) : List (Chapter k v) → Prop
  | [] => True
  | c :: older => c.LeadsTo start value ∧ Continuous c.span.first c.span.value older

variable {capacity : ℕ} {h : History k v} {j : Journal k v} {edit : Edit k v} {c : Chapter k v}

theorem journal_concat (capacity : ℕ) (edits : List (Edit k v)) (edit : Edit k v) :
    journal capacity (edits ++ [edit]) =
      (journal capacity edits).add (after capacity edits) edit := by
  unfold journal after
  generalize new capacity = h
  generalize ({} : Journal k v) = j
  induction edits generalizing h j with
  | nil => rfl
  | cons first rest ih => exact ih (h.apply first).value.1 (j.add h first)

theorem raised_concat (edits : List (Edit k v)) (edit : Edit k v) :
    raised (edits ++ [edit]) = raised edits + edit.width := by
  simp [raised]

theorem lowered_concat (edits : List (Edit k v)) (edit : Edit k v) :
    lowered (edits ++ [edit]) = lowered edits + edit.delta := by
  simp [lowered]

theorem setWidth_sub_of_le {w i : ℕ} (x y : BitVec w) (hi : i ≤ w) :
    (x - y).setWidth i = x.setWidth i - y.setWidth i := by
  rw [eq_sub_iff_add_eq, ← BitVec.setWidth_add _ _ hi, sub_add_cancel]

theorem Chapter.leadsTo_of_step {start : BitVec k} {value : BitVec v}
    (hstep : (value - c.span.value + lowered c.edits).setWidth (min k v) =
      (start - c.span.last - 1).setWidth (min k v)) : c.LeadsTo start value := by
  refine ⟨hstep, fun hlevel => ?_⟩
  rw [hlevel, add_zero, setWidth_sub_of_le _ _ (min_le_right k v), sub_sub,
    setWidth_sub_of_le _ _ (min_le_left k v)] at hstep
  linear_combination -hstep

/-- The journal tells what the history holds. -/
structure Keeps (capacity : ℕ) (h : History k v) (j : Journal k v) : Prop where
  room : h.capacity = max capacity 1
  closed : h.closed = (j.chapters.map Chapter.span).take (max capacity 1)
  value : h.value = j.base + raised j.edits - lowered j.edits
  continuous : Continuous h.start h.value j.chapters

theorem keeps_new (capacity : ℕ) : Keeps capacity (new capacity : History k v) {} :=
  ⟨rfl, List.take_nil.symm, by simp [new, raised, lowered], trivial⟩

/-- Within a chapter, an edit moves the start of the open range on by the keys that it leaves out. -/
theorem Chapter.LeadsTo.note {start next : BitVec k} {value value' : BitVec v}
    (hc : c.LeadsTo start value) (hvalue : value' = value + edit.width - edit.delta)
    (hnext : (next - start).setWidth (min k v) = edit.width.setWidth (min k v)) :
    (c.note edit).LeadsTo next value' := by
  have hstep := hc.step
  apply leadsTo_of_step
  have hsum : value' - c.span.value + lowered (c.note edit).edits =
      value - c.span.value + lowered c.edits + edit.width := by
    rw [hvalue, Chapter.note, lowered_concat]
    ring
  have hgap : next - c.span.last - 1 = start - c.span.last - 1 + (next - start) := by ring
  change (value' - c.span.value + _).setWidth _ = (next - c.span.last - 1).setWidth _
  rw [hsum, hgap, BitVec.setWidth_add _ _ (min_le_right k v), hstep,
    BitVec.setWidth_add _ _ (min_le_left k v), hnext]

/-- An edit that closes the open range begins a chapter. -/
theorem Chapter.leadsTo_of_cut {stop next : BitVec k} {value : BitVec v}
    (hvalue : value = h.value + edit.width - edit.delta)
    (hnext : (next - stop).setWidth (min k v) = edit.width.setWidth (min k v)) :
    (⟨⟨h.start, stop - 1, h.value⟩, [edit]⟩ : Chapter k v).LeadsTo next value := by
  apply leadsTo_of_step
  have hsum : value - h.value + lowered [edit] = edit.width := by
    rw [hvalue, lowered, List.map_singleton, List.sum_singleton]
    ring
  have hgap : next - (stop - 1) - 1 = next - stop := by ring
  rw [hsum, hgap, hnext]

theorem Continuous.note {start next : BitVec k} {value value' : BitVec v}
    {chapters : List (Chapter k v)} (hc : Continuous start value chapters)
    (hvalue : value' = value + edit.width - edit.delta)
    (hnext : (next - start).setWidth (min k v) = edit.width.setWidth (min k v)) :
    Continuous next value' (chapters.modifyHead (·.note edit)) := by
  cases chapters with
  | nil => trivial
  | cons c older =>
    obtain ⟨hnewest, holder⟩ := hc
    exact ⟨hnewest.note hvalue hnext, holder⟩

theorem map_span_note (edit : Edit k v) (chapters : List (Chapter k v)) :
    (chapters.modifyHead (·.note edit)).map Chapter.span = chapters.map Chapter.span := by
  cases chapters <;> rfl

/-- An accepted edit changes the open range in place, or closes it. -/
theorem Keeps.advance (hkeeps : Keeps capacity h j) {stop next : BitVec k} {value : BitVec v}
    (hcut : edit.cut h = if stop = h.start then none else some stop)
    (hvalue : value = h.value + edit.width - edit.delta)
    (hnext : (next - stop).setWidth (min k v) = edit.width.setWidth (min k v)) :
    Keeps capacity (h.advance stop next value) (j.enter h edit) := by
  have hsum : value = j.base + raised (j.edits ++ [edit]) - lowered (j.edits ++ [edit]) := by
    rw [hvalue, hkeeps.value, raised_concat, lowered_concat]
    ring
  unfold History.advance Journal.enter
  by_cases hstop : stop = h.start
  · rw [if_pos hstop] at hcut ⊢
    rw [hcut]
    subst hstop
    constructor
    · exact hkeeps.room
    · simp only
      rw [map_span_note]
      exact hkeeps.closed
    · exact hsum
    · exact hkeeps.continuous.note hvalue hnext
  · rw [if_neg hstop] at hcut ⊢
    rw [hcut]
    -- the range that was open becomes the newest chapter, and the edit leads on from it
    constructor
    · exact hkeeps.room
    · simp only
      obtain ⟨n, hn⟩ : ∃ n, max capacity 1 = n + 1 := ⟨max capacity 1 - 1, by omega⟩
      rw [hkeeps.room, hkeeps.closed, List.map_cons, hn, List.take_succ_cons,
        List.take_succ_cons, List.take_take, min_eq_left (Nat.le_succ n)]
    · exact hsum
    · exact ⟨Chapter.leadsTo_of_cut hvalue hnext, hkeeps.continuous⟩

theorem Keeps.add (hkeeps : Keeps capacity h j) (edit : Edit k v) :
    Keeps capacity (h.apply edit).value.1 (j.add h edit) := by
  unfold Journal.add
  cases edit with
  | exclude first stop =>
    rw [apply, Traced.value_map]
    cases hexclude : (h.exclude first stop).value with
    | error e => exact hkeeps
    | ok h' =>
      obtain ⟨-, -, rfl⟩ := exclude_eq_ok hexclude
      apply hkeeps.advance rfl
      · simp [Edit.width, Edit.delta]
      · exact (BitVec.setWidth_setWidth_of_le _ (min_le_right k v)).symm
  | lower delta =>
    have hinPlace : h.lower delta = h.advance h.start h.start (h.value - delta) := by
      rw [lower, History.advance, if_pos rfl]
    rw [apply, Traced.value_pure, hinPlace]
    apply hkeeps.advance (if_pos rfl).symm
    · simp [Edit.width, Edit.delta]
    · simp [Edit.width]
  | lowerFrom key delta =>
    rw [apply, Traced.value_map, value_lowerFrom]
    split
    · exact hkeeps
    · apply hkeeps.advance rfl
      · simp [Edit.width, Edit.delta]
      · simp [Edit.width]
  | reset value =>
    rw [apply, Traced.value_pure]
    exact ⟨hkeeps.room, List.take_nil.symm, by simp [reset, raised, lowered], trivial⟩

/-- The journal of a run tells what the history holds at its end. -/
theorem keeps_after (capacity : ℕ) (edits : List (Edit k v)) :
    Keeps capacity (after capacity edits) (journal capacity edits) := by
  induction edits using List.reverseRecOn with
  | nil => exact keeps_new capacity
  | append_singleton edits edit ih =>
    rw [after_concat, journal_concat]
    exact ih.add edit

/-! ### Closed ranges -/

theorem keep_of_refused {e : HistoryError} {result : Except HistoryError (History k v)}
    (hrefused : (h.keep result).2 = .error e) : (h.keep result).1 = h := by
  cases result with
  | error e => rfl
  | ok changed => cases hrefused

theorem apply_of_refused {e : HistoryError} (hrefused : (h.apply edit).value.2 = .error e) :
    (h.apply edit).value.1 = h := by
  cases edit with
  | exclude first stop =>
    rw [apply, Traced.value_map] at hrefused ⊢
    exact keep_of_refused hrefused
  | lower delta => cases hrefused
  | lowerFrom key delta =>
    rw [apply, Traced.value_map] at hrefused ⊢
    exact keep_of_refused hrefused
  | reset value => cases hrefused

/-- A closed range falls short of half the space by two keys or more. -/
theorem distance_closed (hk : 0 < k) (capacity : ℕ) (edits : List (Edit k v)) {s : Span k v}
    (hs : s ∈ (after capacity edits).closed) :
    (Serial.distance s.last s.first).toNat + 2 ≤ (Serial.halfRange k).toNat := by
  have htiled := Line.tiled_after capacity edits
  have htwo := Serial.two_pow_eq_two_mul hk
  rw [after_eq_wrap hk] at hs
  obtain ⟨segment, hsegment, rfl⟩ := List.mem_map.mp hs
  obtain ⟨hle, hshort⟩ := htiled.bounds hsegment
  have hdistance := Serial.toNat_distance_ofInt (w := k) segment.last segment.first
  rw [Int.emod_eq_of_lt (by omega) (by omega)] at hdistance
  rw [Serial.toNat_halfRange hk, Segment.wrap]
  zify
  omega

theorem Journal.spans_add (j : Journal k v) (h : History k v) (hreset : edit.isReset = false) :
    ∃ fresh, (j.add h edit).chapters.map Chapter.span = fresh ++ j.chapters.map Chapter.span := by
  have henter : ∃ fresh, (j.enter h edit).chapters.map Chapter.span =
      fresh ++ j.chapters.map Chapter.span := by
    unfold Journal.enter
    cases edit.cut h with
    | none => exact ⟨[], map_span_note edit j.chapters⟩
    | some stop => exact ⟨[⟨h.start, stop - 1, h.value⟩], rfl⟩
  unfold Journal.add
  split
  · exact ⟨[], rfl⟩
  · cases hreset
  · exact henter

/-- Until the next reset, closed ranges are kept as they are or forgotten, the oldest first. -/
theorem closed_append (capacity : ℕ) (edits later : List (Edit k v))
    (hlater : ∀ edit ∈ later, edit.isReset = false) :
    ∃ fresh, (after capacity (edits ++ later)).closed =
      (fresh ++ (after capacity edits).closed).take (max capacity 1) := by
  have hspans : ∃ fresh, (journal capacity (edits ++ later)).chapters.map Chapter.span =
      fresh ++ (journal capacity edits).chapters.map Chapter.span := by
    induction later using List.reverseRecOn with
    | nil => exact ⟨[], by simp⟩
    | append_singleton later edit ih =>
      obtain ⟨fresh, hfresh⟩ := ih fun e he => hlater e (List.mem_append_left _ he)
      obtain ⟨newest, hnewest⟩ := (journal capacity (edits ++ later)).spans_add
        (after capacity (edits ++ later)) (hlater edit (by simp))
      refine ⟨newest ++ fresh, ?_⟩
      rw [← List.append_assoc, journal_concat, hnewest, hfresh, List.append_assoc]
  obtain ⟨fresh, hfresh⟩ := hspans
  refine ⟨fresh, ?_⟩
  -- of the ranges before, those are left that are not forgotten at either point
  rw [(keeps_after capacity (edits ++ later)).closed, hfresh, (keeps_after capacity edits).closed,
    List.take_append, List.take_append, List.take_take, min_eq_left (Nat.sub_le _ _)]

/-- Edits are always answered if the ranges of a full history can be counted. After any edits, a
refused one changes nothing more. There are no more ranges than the history keeps, and each closed
one is shorter than half the space. They are the newest ones that were closed since the last reset,
and stay as they are until they are forgotten, the oldest first. The value of the open range is that
of the last reset, raised by what was excluded and lowered by what was taken off since; and from each
closed range to the next one the value changes by the keys between them, less what was taken off in
between. -/
theorem after_accounts (hk : 0 < k) {capacity : ℕ} (hcapacity : capacity + 1 < UInt64.size)
    (edits : List (Edit k v)) :
    let h := after capacity edits
    let j := journal capacity edits
    ((new capacity : History k v).applyAll edits).overflow = false ∧
      (∀ edit e, (h.apply edit).value.2 = .error e → (h.apply edit).value.1 = h) ∧
      (1 ≤ h.size ∧ h.size ≤ max capacity 1 + 1) ∧
      (∀ s ∈ h.closed,
        (Serial.distance s.last s.first).toNat + 2 ≤ (Serial.halfRange k).toNat) ∧
      h.closed = (j.chapters.map Chapter.span).take (max capacity 1) ∧
      (∀ later : List (Edit k v), (∀ edit ∈ later, edit.isReset = false) →
        ∃ fresh, (after capacity (edits ++ later)).closed =
          (fresh ++ h.closed).take (max capacity 1)) ∧
      h.value = j.base + raised j.edits - lowered j.edits ∧
      Continuous h.start h.value j.chapters := by
  intro h j
  have hkeeps : Keeps capacity h j := keeps_after capacity edits
  have hlength : h.closed.length ≤ max capacity 1 := by
    rw [hkeeps.closed]
    exact List.length_take_le ..
  refine ⟨overflow_applyAll (new_capacity_lt hcapacity) edits, fun edit e => apply_of_refused,
    ⟨?_, ?_⟩, fun s hs => distance_closed hk capacity edits hs, hkeeps.closed,
    closed_append capacity edits, hkeeps.value, hkeeps.continuous⟩
  · unfold size
    omega
  · unfold size
    omega

/-- The exclusions close a range and widen the gap after it, one adjustment falls between them and
one closes the next range. The last edit is refused. -/
private def adjusted : List (Edit 8 16) :=
  [.reset 7, .exclude 10 12, .lower 3, .exclude 12 15, .lowerFrom 20 5, .lower 1, .exclude 30 20]

theorem after_accounts_adjusted :
    (after 1 adjusted).closed = [⟨15, 19, 9⟩] ∧ (after 1 adjusted).value = 3 ∧
      (journal 1 adjusted).chapters.map Chapter.span = [⟨15, 19, 9⟩, ⟨0, 9, 7⟩] ∧
      Continuous (after 1 adjusted).start (after 1 adjusted).value (journal 1 adjusted).chapters := by
  have hcapacity : 1 + 1 < UInt64.size := by decide
  obtain ⟨-, -, -, -, hclosed, -, hvalue, hcontinuous⟩ :=
    after_accounts (k := 8) (v := 16) (by decide) hcapacity adjusted
  have hspans : (journal 1 adjusted).chapters.map Chapter.span = [⟨15, 19, 9⟩, ⟨0, 9, 7⟩] := by
    decide
  rw [hspans] at hclosed
  refine ⟨hclosed, ?_, hspans, hcontinuous⟩
  rw [hvalue]
  decide

/-- The ranges of the largest history cannot be counted once one is closed. -/
theorem after_accounts_overflow :
    ((new (UInt64.size - 1) : History 32 32).applyAll [.exclude 10 12]).outcome = none := by
  decide

end Renumber.History
