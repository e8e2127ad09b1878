import Renumber.Numbering
import Renumber.Proofs.Ledger
import Renumber.Proofs.Unrolling

/-! Offsets that keep the books of a stream: every number that is found has its slot's offset. -/
namespace Renumber

namespace Line

/-- What the line has for an integer is how far its slot lags behind, and nothing left out is found.
Nothing else is missing, except before the oldest segment once older ones were forgotten. -/
structure Records (l : Line) (g : Ledger) : Prop where
  opened : ∀ x, l.start ≤ x → x ∉ g.dropped ∧ g.slot x = x - l.value
  closed : ∀ s ∈ l.closed, ∀ x, s.first ≤ x → x ≤ s.last →
    x ∉ g.dropped ∧ g.slot x = x - s.value
  gaps : ∀ gap ∈ l.gaps, ∀ x, gap.1 < x → x < gap.2 → x ∈ g.dropped
  origin : l.closed.length < l.capacity →
    ∀ x, 0 ≤ x → x < oldestFrom l.start l.closed → x ∈ g.dropped

structure Nonneg (l : Line) : Prop where
  start : 0 ≤ l.start
  closed : ∀ s ∈ l.closed, 0 ≤ s.first

variable {k : ℕ} {l : Line} {g g' : Ledger}

theorem Tiled.last_lt {next : ℤ} {closed : List Segment} (h : Tiled k next closed) {s : Segment}
    (hs : s ∈ closed) : s.last < next := by
  induction closed generalizing next with
  | nil => cases hs
  | cons newest older ih =>
    obtain ⟨hle, -, hlt, hold⟩ := h
    rcases List.mem_cons.mp hs with rfl | hs
    · exact hlt
    · have := ih hold hs
      omega

theorem gapsBefore_bounds {next : ℤ} {closed : List Segment} (h : Tiled k next closed)
    (hpos : ∀ s ∈ closed, 0 ≤ s.first) : ∀ gap ∈ gapsBefore next closed, gap.2 - gap.1 ≤ next := by
  induction closed generalizing next with
  | nil => simp [gapsBefore]
  | cons s older ih =>
    intro gap hgap
    obtain ⟨hle, -, hlt, hold⟩ := h
    have hs := hpos s (List.mem_cons_self ..)
    rcases List.mem_cons.mp hgap with rfl | hgap
    · simp only
      omega
    · have := ih hold (fun s' hs' => hpos s' (List.mem_cons_of_mem _ hs')) gap hgap
      omega

theorem Records.get (h : l.Records g) {x v : ℤ} (hx : l.get x = .ok v) :
    x ∉ g.dropped ∧ g.slot x = x - v := by
  unfold Line.get at hx
  split at hx
  · next hle =>
    obtain rfl := Except.ok.inj hx
    exact h.opened x hle
  · split at hx
    · next s hfind =>
      obtain rfl := Except.ok.inj hx
      have hs := List.find?_some hfind
      rw [decide_eq_true_iff] at hs
      exact h.closed s (List.mem_of_find?_eq_some hfind) x hs.1 hs.2
    · cases hx

theorem gapsBefore_take {next : ℤ} {closed : List Segment} {n : ℕ} {gap : ℤ × ℤ}
    (h : gap ∈ gapsBefore next (closed.take n)) : gap ∈ gapsBefore next closed := by
  induction closed generalizing next n with
  | nil => simp [gapsBefore] at h
  | cons s older ih =>
    cases n with
    | zero => simp [gapsBefore] at h
    | succ n =>
      rw [List.take_succ_cons, gapsBefore, List.mem_cons] at h
      rw [gapsBefore, List.mem_cons]
      exact h.imp_right ih

/-- A change leaves no gap but what it leaves out itself. -/
theorem Records.gaps_advance (h : l.Records g) {stop next value : ℤ}
    (hdropped : ∀ x ∈ g.dropped, x ∈ g'.dropped)
    (hleft : ∀ x, stop ≤ x → x < next → x ∈ g'.dropped) :
    ∀ gap ∈ (l.advance stop next value).gaps, ∀ x, gap.1 < x → x < gap.2 → x ∈ g'.dropped := by
  have hgaps := h.gaps
  unfold Line.gaps Line.advance
  unfold Line.gaps at hgaps
  split
  · next heq =>
    cases hclosed : l.closed with
    | nil => simp [gapsBefore]
    | cons s older =>
      rw [hclosed] at hgaps
      intro gap hgap x hlow hhigh
      -- the newest gap grows: its old part was left out before, the rest is left out now
      rcases List.mem_cons.mp hgap with rfl | hgap
      · rcases lt_or_ge x l.start with hx | hx
        · exact hdropped x (hgaps (s.last, l.start) (List.mem_cons_self ..) x hlow hx)
        · exact hleft x (by omega) hhigh
      · exact hdropped x (hgaps gap (List.mem_cons_of_mem _ hgap) x hlow hhigh)
  · cases l.capacity with
    | zero => simp [gapsBefore]
    | succ n =>
      intro gap hgap x hlow hhigh
      rw [List.take_succ_cons] at hgap
      rcases List.mem_cons.mp hgap with rfl | hgap
      · exact hleft x (by simp only at hlow; omega) hhigh
      · exact hdropped x (hgaps gap (gapsBefore_take hgap) x hlow hhigh)

theorem Records.origin_advance (h : l.Records g) {stop next value : ℤ}
    (hdropped : ∀ x ∈ g.dropped, x ∈ g'.dropped)
    (hleft : ∀ x, stop ≤ x → x < next → x ∈ g'.dropped)
    (hroom : (l.advance stop next value).closed.length < l.capacity) {x : ℤ} (hx : 0 ≤ x)
    (hlt : x < oldestFrom next (l.advance stop next value).closed) : x ∈ g'.dropped := by
  have horigin := h.origin
  unfold Line.advance at hroom hlt
  split at hroom
  · next heq =>
    rw [if_pos heq] at hlt
    cases hclosed : l.closed with
    | nil =>
      rcases lt_or_ge x l.start with hx' | hx'
      · refine hdropped x (horigin hroom x hx ?_)
        rw [hclosed]
        exact hx'
      · refine hleft x (by omega) ?_
        simpa [hclosed, oldestFrom] using hlt
    | cons s older =>
      refine hdropped x (horigin hroom x hx ?_)
      simp only [hclosed, oldestFrom_cons] at hlt ⊢
      exact hlt
  · next hne =>
    rw [if_neg hne] at hlt
    simp only [List.length_take, List.length_cons] at hroom
    refine hdropped x (horigin (by omega) x hx ?_)
    rwa [List.take_of_length_le (by simp; omega), oldestFrom_cons] at hlt

theorem Records.advance (h : l.Records g) (htiled : Tiled k l.start l.closed) {stop next value : ℤ}
    (hstop : l.start ≤ stop) (hdropped : ∀ x ∈ g.dropped, x ∈ g'.dropped)
    (hleft : ∀ x, stop ≤ x → x < next → x ∈ g'.dropped)
    (hbefore : ∀ x < stop, x ∉ g.dropped → x ∉ g'.dropped ∧ g'.slot x = g.slot x)
    (hafter : ∀ x, next ≤ x → x ∉ g'.dropped ∧ g'.slot x = x - value) :
    (l.advance stop next value).Records g' := by
  have hold : ∀ s ∈ l.closed, ∀ x, s.first ≤ x → x ≤ s.last →
      x ∉ g'.dropped ∧ g'.slot x = x - s.value := by
    intro s hs x hf hl
    have := htiled.last_lt hs
    obtain ⟨hx, hslot⟩ := h.closed s hs x hf hl
    rw [← hslot]
    exact hbefore x (by omega) hx
  constructor
  · rw [advance_start, advance_value]
    exact hafter
  · unfold Line.advance
    split
    · exact hold
    · intro s hs x hf hl
      rcases List.mem_cons.mp (List.mem_of_mem_take hs) with rfl | hs
      · simp only at hf hl
        obtain ⟨hx, hslot⟩ := h.opened x hf
        rw [← hslot]
        exact hbefore x (by omega) hx
      · exact hold s hs x hf hl
  · exact h.gaps_advance hdropped hleft
  · rw [advance_capacity, advance_start]
    exact fun hroom x hx hlt => h.origin_advance hdropped hleft hroom hx hlt

theorem Nonneg.advance (h : l.Nonneg) {stop next value : ℤ} (hnext : 0 ≤ next) :
    (l.advance stop next value).Nonneg := by
  unfold Line.advance
  split
  · exact ⟨hnext, h.closed⟩
  · refine ⟨hnext, ?_⟩
    intro s hs
    rcases List.mem_cons.mp (List.mem_of_mem_take hs) with rfl | hs
    · exact h.start
    · exact h.closed s hs

end Line

/-- The offsets are a line that keeps the books. -/
structure Kept (history : ℕ) (offsets : History 64 64) (l : Line) (g : Ledger) : Prop where
  offsets : offsets = l.wrap
  capacity : l.capacity = max history 1
  tiled : Line.Tiled 64 l.start l.closed
  nonneg : l.Nonneg
  bounded : l.closed.length ≤ l.capacity
  records : l.Records g

namespace Kept

variable {history : ℕ} {offsets : History 64 64} {l : Line} {g : Ledger}

theorem blank {s : ℤ} (hc : offsets.capacity = max history 1) (hd : g.dropped = ∅)
    (hr : g.reserved = []) (hs : g.shift = s) :
    Kept history (offsets.reset (BitVec.ofInt 64 (-s))) ⟨max history 1, [], 0, -s⟩ g := by
  have hslot : ∀ x, g.slot x = x + s := by
    intro x
    simp [Ledger.slot, hd, hr, hs]
  refine ⟨?_, rfl, trivial, ⟨le_rfl, by simp⟩, Nat.zero_le _, ⟨?_, by simp, ?_, ?_⟩⟩
  · rw [History.reset, hc]
    rfl
  · intro x _
    rw [hd, hslot, sub_neg_eq_add]
    exact ⟨Finset.notMem_empty x, rfl⟩
  · intro gap hgap
    cases hgap
  · intro _ x hx hlt
    exact absurd hlt (not_lt_of_ge hx)

theorem new (history : ℕ) (hd : g.dropped = ∅) (hr : g.reserved = []) (hs : g.shift = 0) :
    Kept history (.new history) ⟨max history 1, [], 0, -0⟩ g := by
  have hc : (History.new history : History 64 64).capacity = max history 1 := rfl
  exact blank hc hd hr hs

theorem congr {g' : Ledger} (h : Kept history offsets l g) (hd : g'.dropped = g.dropped)
    (hs : ∀ x, g'.slot x = g.slot x) : Kept history offsets l g' := by
  refine ⟨h.offsets, h.capacity, h.tiled, h.nonneg, h.bounded, ?_⟩
  constructor
  · intro x hx
    rw [hd, hs]
    exact h.records.opened x hx
  · intro s hs' x hf hl
    rw [hd, hs]
    exact h.records.closed s hs' x hf hl
  · rw [hd]
    exact h.records.gaps
  · rw [hd]
    exact h.records.origin

theorem get (h : Kept history offsets l g) {x : BitVec 64} (hl : l.start ≤ 2 ^ 63)
    (hx : x.toNat < 2 ^ 63) : offsets.get x = (l.get x.toNat).map (BitVec.ofInt 64) := by
  have hgaps : ∀ gap ∈ l.gaps, gap.2 - gap.1 ≤ 2 ^ (64 - 1) := by
    intro gap hgap
    have := Line.gapsBefore_bounds h.tiled h.nonneg.closed gap hgap
    omega
  have hstart := h.nonneg.start
  have hget := Line.get_wrap (v := 64) (by decide) l h.tiled hgaps (x := x.toNat)
    (by omega) (by omega)
  rw [Serial.ofInt_toNat] at hget
  rw [h.offsets, hget]

theorem get_ok (h : Kept history offsets l g) {x : BitVec 64} {v : ℤ}
    (hx : l.get x.toNat = .ok v) : (x.toNat : ℤ) ∉ g.dropped ∧
      x - BitVec.ofInt 64 v = BitVec.ofInt 64 (g.slot x.toNat) := by
  obtain ⟨hmem, hslot⟩ := h.records.get hx
  refine ⟨hmem, ?_⟩
  rw [hslot, Serial.ofInt_sub, Serial.ofInt_toNat]

/-- A number from the start of the open segment on does not precede it on the circle either. -/
theorem not_precedes (h : Kept history offsets l g) {x : BitVec 64} (hl : l.start ≤ x.toNat)
    (hx : x.toNat < 2 ^ 63) : ¬Serial.precedes x offsets.start := by
  have hstart := h.nonneg.start
  have hp := Serial.precedes_ofInt (w := 64) (by decide) (x := x.toNat) (y := l.start)
    (by omega) (by omega)
  rw [Serial.ofInt_toNat] at hp
  rw [h.offsets]
  intro hprec
  have := hp.mp hprec
  omega

theorem advance (h : Kept history offsets l g) {g' : Ledger} {stop next value : ℤ}
    (hstop : l.start ≤ stop) (hreach : stop < l.start + 2 ^ 63) (hnext : stop ≤ next)
    (hdropped : ∀ x ∈ g.dropped, x ∈ g'.dropped)
    (hleft : ∀ x, stop ≤ x → x < next → x ∈ g'.dropped)
    (hbefore : ∀ x < stop, x ∉ g.dropped → x ∉ g'.dropped ∧ g'.slot x = g.slot x)
    (hafter : ∀ x, next ≤ x → x ∉ g'.dropped ∧ g'.slot x = x - value) :
    Kept history (l.advance stop next value).wrap (l.advance stop next value) g' := by
  constructor
  · rfl
  · rw [Line.advance_capacity]
    exact h.capacity
  · exact Line.tiled_advance h.tiled value hstop hreach hnext
  · have := h.nonneg.start
    exact h.nonneg.advance (by omega)
  · rw [Line.advance_capacity]
    exact Line.closed_length_advance h.bounded ..
  · exact h.records.advance h.tiled hstop hdropped hleft hbefore hafter

theorem exclude (h : Kept history offsets l g) {x : BitVec 64} {first : ℤ}
    (hg : g.Spans first x.toNat) (hl : l.start ≤ x.toNat) (hx : x.toNat < 2 ^ 63) :
    (offsets.exclude x (x + 1)).value =
        .ok (l.advance x.toNat (x.toNat + 1) (l.value + 1)).wrap ∧
      Kept history (l.advance x.toNat (x.toNat + 1) (l.value + 1)).wrap
        (l.advance x.toNat (x.toNat + 1) (l.value + 1)) (g.drop x.toNat) := by
  have hstart := h.nonneg.start
  constructor
  · have hdist : Serial.distance (x + 1) x = 1 := by
      rw [Serial.distance, BitVec.add_comm, BitVec.add_sub_cancel]
    have hprec := h.not_precedes hl hx
    have hwrap := Line.wrap_advance (v := 64) (k := 64) (by decide) l x.toNat (x.toNat + 1)
      (l.value + 1) hl (by omega)
    -- the excluded range is one number wide and starts in the open range, so it is accepted
    have haccept : ¬((1 : BitVec 64) = 0 ∨ Serial.halfRange 64 ≤ 1 ∨
        Serial.precedes x offsets.start) := by
      rintro (hzero | hhalf | hp)
      · exact absurd hzero (by decide)
      · exact absurd hhalf (by decide)
      · exact hprec hp
    rw [History.value_exclude, hdist, if_neg haccept, ← hwrap, h.offsets]
    simp [BitVec.ofInt_add, Line.wrap]
  · apply h.advance hl (by omega) (by omega)
    · exact fun y hy => Finset.mem_insert_of_mem hy
    · intro y hlow hhigh
      obtain rfl : y = x.toNat := by omega
      exact Finset.mem_insert_self ..
    · intro y hy hmem
      refine ⟨?_, g.slot_drop_of_le hy.le⟩
      simp only [Ledger.drop, Finset.mem_insert, not_or]
      exact ⟨by omega, hmem⟩
    · intro y hy
      obtain ⟨hmem, hslot⟩ := h.records.opened y (by omega)
      constructor
      · simp only [Ledger.drop, Finset.mem_insert, not_or]
        exact ⟨by omega, hmem⟩
      · rw [g.slot_drop_of_lt (by omega) (hg.notMem_dropped le_rfl), hslot]
        omega

/-- Numbers are reserved after the head. -/
theorem lowerFrom (h : Kept history offsets l g) {x : BitVec 64} (hl : l.start ≤ x.toNat)
    (hx : x.toNat < 2 ^ 63) (delta : BitVec 64) :
    (offsets.lowerFrom x delta).value =
        .ok (l.advance x.toNat x.toNat (l.value - delta.toNat)).wrap ∧
      ∀ ns : List ℤ, ns.length = delta.toNat →
        Kept history (l.advance x.toNat x.toNat (l.value - delta.toNat)).wrap
          (l.advance x.toNat x.toNat (l.value - delta.toNat)) (g.reserve (x.toNat - 1) ns) := by
  have hstart := h.nonneg.start
  constructor
  · have hprec := h.not_precedes hl hx
    have hwrap := Line.wrap_advance (v := 64) (k := 64) (by decide) l x.toNat x.toNat
      (l.value - delta.toNat) hl (by omega)
    rw [History.value_lowerFrom, if_neg hprec, ← hwrap, h.offsets, Line.ofInt_sub_toNat]
    simp [Line.wrap]
  · intro ns hns
    apply h.advance hl (by omega) le_rfl
    · exact fun y hy => hy
    · intro y hlow hhigh
      omega
    · intro y hy hmem
      exact ⟨hmem, g.slot_reserve_of_le ns (by omega)⟩
    · intro y hy
      obtain ⟨hmem, hslot⟩ := h.records.opened y (by omega)
      refine ⟨hmem, ?_⟩
      rw [g.slot_reserve_of_lt ns (by omega), hslot, hns]
      omega

end Kept

end Renumber
