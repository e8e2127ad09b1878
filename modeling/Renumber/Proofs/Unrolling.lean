import Renumber.Proofs.Capacity
import Renumber.Proofs.CircularOrder
import Renumber.Proofs.Line
import Mathlib.Tactic.Linarith
import Mathlib.Tactic.Tauto
import Mathlib.Tactic.Zify

/-! A history is the image of its unrolled line on the circle of keys: edits give the same results
on both, and so do look-ups while no gap takes up more than half of the circle. -/
namespace Renumber

variable {k v : ℕ}

def Segment.wrap (s : Segment) : Span k v :=
  ⟨BitVec.ofInt k s.first, BitVec.ofInt k s.last, BitVec.ofInt v s.value⟩

def Line.wrap (l : Line) : History k v :=
  ⟨l.capacity, l.closed.map Segment.wrap, BitVec.ofInt k l.start, BitVec.ofInt v l.value⟩

namespace History

/-- Closes the open range before `stop`, if anything lies there, and opens the next one. -/
def advance (h : History k v) (stop next : BitVec k) (value : BitVec v) : History k v :=
  if stop = h.start then { h with start := next, value := value }
  else
    { h with
      closed := (⟨h.start, stop - 1, h.value⟩ :: h.closed).take h.capacity
      start := next
      value := value }

theorem value_exclude (h : History k v) (first stop : BitVec k) :
    (h.exclude first stop).value =
      if Serial.distance stop first = 0 ∨ Serial.halfRange k ≤ Serial.distance stop first ∨
          Serial.precedes first h.start then
        .error .reversed
      else
        .ok (h.advance first stop (h.value + (Serial.distance stop first).setWidth v)) := by
  simp only [exclude, advance, Bool.or_eq_true, decide_eq_true_eq]
  by_cases hw : Serial.distance stop first = 0 ∨ Serial.halfRange k ≤ Serial.distance stop first
  · rw [if_pos hw, if_pos (hw.imp_right Or.inl)]
    rfl
  by_cases hp : Serial.precedes first h.start
  · rw [if_neg hw, if_pos hp, if_pos (Or.inr (Or.inr hp))]
    rfl
  have hor : ¬(Serial.distance stop first = 0 ∨ Serial.halfRange k ≤ Serial.distance stop first ∨
      Serial.precedes first h.start) := by tauto
  rw [if_neg hw, if_neg hp, if_neg hor]
  split <;> rfl

theorem value_lowerFrom (h : History k v) (key : BitVec k) (delta : BitVec v) :
    (h.lowerFrom key delta).value =
      if Serial.precedes key h.start then .error .reversed
      else .ok (h.advance key key (h.value - delta)) := by
  simp only [lowerFrom, advance]
  split
  · rfl
  · split
    · next he => subst he; rfl
    · rfl

end History

namespace Line

theorem wrap_new (capacity : ℕ) : (new capacity).wrap = (History.new capacity : History k v) := rfl

theorem reading_sub_start (l : Line) (key : BitVec k) :
    l.reading key - l.start = (Serial.distance key (BitVec.ofInt k l.start)).toNat := by
  have hkey : key = BitVec.ofInt k key.toNat := by simp
  rw [hkey, Serial.toNat_distance_ofInt, ← hkey, reading, add_sub_cancel_left]

theorem ofInt_reading (l : Line) (key : BitVec k) : BitVec.ofInt k (l.reading key) = key := by
  rw [sub_eq_iff_eq_add.mp (reading_sub_start l key), BitVec.ofInt_add, Serial.ofInt_toNat,
    Serial.distance, BitVec.sub_add_cancel]

theorem reaches_iff (hk : 0 < k) (l : Line) (key : BitVec k) :
    l.Reaches key ↔ Serial.isOnOrAfter key (BitVec.ofInt k l.start) := by
  have h := reading_sub_start l key
  rw [Serial.isOnOrAfter_iff_toNat hk, Reaches]
  zify
  omega

theorem wrap_advance (hk : 0 < k) (l : Line) (stop next value : ℤ) (hl : l.start ≤ stop)
    (hu : stop < l.start + 2 ^ (k - 1)) :
    (l.wrap : History k v).advance (BitVec.ofInt k stop) (BitVec.ofInt k next)
      (BitVec.ofInt v value) = (l.advance stop next value).wrap := by
  have hstart := Serial.ofInt_inj hk (x := stop) (y := l.start) (by omega) (by omega)
  by_cases he : stop = l.start
  · simp [History.advance, advance, wrap, he]
  · have hs : BitVec.ofInt k (stop - 1) = BitVec.ofInt k stop - 1 := Serial.ofInt_sub stop 1
    simp [History.advance, advance, wrap, hstart, he, Segment.wrap, List.map_take, hs]

theorem ofInt_add_toNat (x : ℤ) (width : BitVec k) :
    BitVec.ofInt v (x + width.toNat) = BitVec.ofInt v x + width.setWidth v := by
  rw [BitVec.ofInt_add, BitVec.ofInt_natCast, BitVec.ofNat_toNat]

theorem ofInt_sub_toNat (x : ℤ) (delta : BitVec v) :
    BitVec.ofInt v (x - delta.toNat) = BitVec.ofInt v x - delta := by
  rw [Serial.ofInt_sub, Serial.ofInt_toNat]

theorem precedes_start_iff (hk : 0 < k) (l : Line) (key : BitVec k) :
    Serial.precedes key (l.wrap : History k v).start ↔ ¬l.Reaches key := by
  have hstart : (l.wrap : History k v).start = BitVec.ofInt k l.start := rfl
  rw [hstart, reaches_iff hk, Serial.precedes_iff_not]

theorem toNat_width (first stop : BitVec k) :
    ((Serial.distance stop first).toNat : ℤ) = (stop.toNat - first.toNat) % 2 ^ k := by
  have h := Serial.toNat_distance_ofInt (w := k) stop.toNat first.toNat
  rwa [Serial.ofInt_toNat, Serial.ofInt_toNat] at h

/-- Both refuse the same exclusions. -/
theorem exclude_refused_iff (hk : 0 < k) (l : Line) (first stop : BitVec k) :
    (Serial.distance stop first = 0 ∨ Serial.halfRange k ≤ Serial.distance stop first ∨
        Serial.precedes first (l.wrap : History k v).start) ↔
      ¬(0 < (stop.toNat - first.toNat : ℤ) % 2 ^ k ∧
        (stop.toNat - first.toNat : ℤ) % 2 ^ k < 2 ^ (k - 1) ∧ l.Reaches first) := by
  have hwidth := toNat_width first stop
  have hzero : Serial.distance stop first = 0 ↔ (Serial.distance stop first).toNat = 0 := by
    rw [← BitVec.toNat_inj]
    simp
  have hhalf : Serial.halfRange k ≤ Serial.distance stop first ↔
      2 ^ (k - 1) ≤ (Serial.distance stop first).toNat := by
    rw [BitVec.le_def, Serial.toNat_halfRange hk]
  zify at hzero hhalf
  rw [precedes_start_iff hk, hzero, hhalf, not_and_or, not_and_or]
  exact or_congr (by omega) (or_congr (by omega) Iff.rfl)

/-- An edit has the same result on the circle as on the line. -/
theorem apply_wrap (hk : 0 < k) (l : Line) (edit : History.Edit k v) :
    ((l.wrap : History k v).apply edit).value = ((l.apply edit).1.wrap, (l.apply edit).2) := by
  cases edit with
  | exclude first stop =>
    have hwidth := toNat_width first stop
    simp only [History.apply, Traced.value_map, History.value_exclude,
      exclude_refused_iff hk l first stop, apply]
    by_cases hc : 0 < (stop.toNat - first.toNat : ℤ) % 2 ^ k ∧
        (stop.toNat - first.toNat : ℤ) % 2 ^ k < 2 ^ (k - 1) ∧ l.Reaches first
    · have hstop :
          BitVec.ofInt k (l.reading first + (stop.toNat - first.toNat) % 2 ^ k) = stop := by
        rw [← hwidth, ofInt_add_toNat, ofInt_reading, BitVec.setWidth_eq, Serial.distance,
          BitVec.add_comm, BitVec.sub_add_cancel]
      rw [if_pos hc, if_neg (not_not.mpr hc),
        ← wrap_advance hk l _ _ _ (l.start_le_reading first) hc.2.2, hstop, ofInt_reading,
        ← hwidth, ofInt_add_toNat]
      rfl
    · rw [if_neg hc, if_pos hc]
      rfl
  | lower delta => simp [History.apply, apply, History.lower, wrap, ofInt_sub_toNat]
  | lowerFrom key delta =>
    simp only [History.apply, Traced.value_map, History.value_lowerFrom,
      precedes_start_iff hk l key, apply]
    by_cases hc : l.Reaches key
    · rw [if_pos hc, if_neg (not_not.mpr hc),
        ← wrap_advance hk l _ _ _ (l.start_le_reading key) hc, ofInt_reading, ofInt_sub_toNat]
      rfl
    · rw [if_neg hc, if_pos hc]
      rfl
  | reset value => simp [History.apply, apply, History.reset, reset, wrap]

theorem applyAll_wrap (hk : 0 < k) (l : Line) (edits : List (History.Edit k v)) :
    ((l.wrap : History k v).applyAll edits).value =
      ((l.applyAll edits).1.wrap, (l.applyAll edits).2) := by
  induction edits generalizing l with
  | nil => rfl
  | cons edit rest ih =>
    simp only [History.applyAll, Traced.value_bind, Traced.value_pure, apply_wrap hk, ih, applyAll]

/-- The scan of the closed ranges finds what the line has, if the key is not adrift in a gap. -/
theorem getBefore_wrap (hk : 0 < k) {x next : ℤ} {closed : List Segment} (hx : x < next)
    (hnear : next - 2 ^ (k - 1) ≤ x) (htiled : Tiled k next closed)
    (hgaps : ∀ g ∈ gapsBefore next closed, ¬Adrift k g x) :
    History.getBefore (BitVec.ofInt k x) (BitVec.ofInt k next) (closed.map Segment.wrap) =
      (match closed.find? fun s => s.first ≤ x ∧ x ≤ s.last with
        | some s => .ok (BitVec.ofInt v s.value)
        | none => .error (if oldestFrom next closed ≤ x then .excluded else .tooOld)) := by
  induction closed generalizing next with
  | nil =>
    have hp := (Serial.precedes_ofInt hk (x := x) (y := next) (by omega) (by omega)).mpr hx
    have hnext : ¬next ≤ x := not_le.mpr hx
    simp [History.getBefore, oldestFrom, hp, hnext]
  | cons s older ih =>
    obtain ⟨hs, hlen, hnext, hold⟩ := htiled
    have hgap : ¬Adrift k (s.last, next) x := hgaps _ (List.mem_cons_self ..)
    simp only [Adrift] at hgap
    have hoff : Serial.strictlyBetween (BitVec.ofInt k x) (BitVec.ofInt k s.last)
        (BitVec.ofInt k next) ↔ s.last < x :=
      Serial.strictlyBetween_ofInt hk (by omega) (by omega) hx fun _ => by omega
    simp only [oldestFrom_cons, List.map_cons, History.getBefore, Segment.wrap]
    by_cases hlast : s.last < x
    · -- the key lies in the gap before `next`, and no older range holds it
      have hle := hold.oldestFrom_le
      have hout : ¬(s.first ≤ x ∧ x ≤ s.last) := by omega
      rw [if_pos (hoff.mpr hlast), List.find?_cons_of_neg (by simpa using hout),
        hold.find?_eq_none (by omega)]
      rw [if_pos (show oldestFrom s.first older ≤ x by omega)]
    have hin : Serial.within (BitVec.ofInt k x) (BitVec.ofInt k s.first) (BitVec.ofInt k s.last) ↔
        s.first ≤ x := Serial.within_ofInt hk (by omega) (by omega) (by omega)
    rw [if_neg (mt hoff.mp hlast)]
    by_cases hfirst : s.first ≤ x
    · have hmem : s.first ≤ x ∧ x ≤ s.last := by omega
      rw [if_pos (hin.mpr hfirst), List.find?_cons_of_pos (by simpa using hmem)]
    · have hout : ¬(s.first ≤ x ∧ x ≤ s.last) := by omega
      rw [if_neg (mt hin.mp hfirst), List.find?_cons_of_neg (by simpa using hout)]
      exact ih (by omega) (by omega) hold fun g hg => hgaps g (List.mem_cons_of_mem _ hg)

theorem get_wrap_of_not_adrift (hk : 0 < k) (l : Line) (htiled : Tiled k l.start l.closed) {x : ℤ}
    (hgaps : ∀ g ∈ l.gaps, ¬Adrift k g x) (hl : l.start - 2 ^ (k - 1) ≤ x)
    (hu : x < l.start + 2 ^ (k - 1)) :
    (l.wrap : History k v).get (BitVec.ofInt k x) = (l.get x).map (BitVec.ofInt v) := by
  have hon := Serial.isOnOrAfter_ofInt hk (x := x) (y := l.start) (by omega) (by omega)
  by_cases hx : l.start ≤ x
  · simp [History.get, wrap, get, hx, hon.mpr hx, Except.map]
  · have hnot : ¬Serial.isOnOrAfter (BitVec.ofInt k x) (BitVec.ofInt k l.start) := mt hon.mp hx
    rw [History.get, get, if_neg hx, wrap, if_neg hnot,
      getBefore_wrap hk (by omega) (by omega) htiled hgaps]
    cases l.closed.find? fun s => s.first ≤ x ∧ x ≤ s.last <;> rfl

theorem get_wrap (hk : 0 < k) (l : Line) (htiled : Tiled k l.start l.closed)
    (hgaps : ∀ g ∈ l.gaps, g.2 - g.1 ≤ 2 ^ (k - 1)) {x : ℤ} (hl : l.start - 2 ^ (k - 1) ≤ x)
    (hu : x < l.start + 2 ^ (k - 1)) :
    (l.wrap : History k v).get (BitVec.ofInt k x) = (l.get x).map (BitVec.ofInt v) := by
  refine l.get_wrap_of_not_adrift hk htiled (fun g hg => ?_) hl hu
  rintro ⟨hlow, hhigh, hfar⟩
  have := hgaps g hg
  omega

theorem nearest_iff (hk : 0 < k) (l : Line) (key : BitVec k) (x : ℤ) :
    l.Nearest key x ↔ x = l.start + (key - BitVec.ofInt k l.start).toInt := by
  constructor
  · rintro ⟨hl, hu, rfl⟩
    rw [← Serial.ofInt_sub, BitVec.toInt_ofInt_eq_self hk (by omega) (by omega)]
    omega
  · rintro rfl
    have hl := BitVec.le_toInt (key - BitVec.ofInt k l.start)
    have hu := BitVec.toInt_lt (x := key - BitVec.ofInt k l.start)
    refine ⟨by omega, by omega, ?_⟩
    rw [BitVec.ofInt_add, BitVec.ofInt_toInt, BitVec.add_comm, BitVec.sub_add_cancel]

end Line

namespace History

/-- A look-up after any edits gives what the line has at the integer nearest to its start that the
key stands for, however often the keys have come round. Edits and look-ups are always answered if the
ranges of a full history can be counted. -/
theorem lookup_after (hk : 0 < k) {capacity : ℕ} (hcapacity : capacity + 1 < UInt64.size)
    (edits : List (Edit k v)) :
    ((new capacity).applyAll edits).outcome =
        some (after capacity edits, ((Line.new capacity).applyAll edits).2) ∧
      ((∀ g ∈ (Line.after capacity edits).gaps, g.2 - g.1 - 1 ≤ 2 ^ (k - 1) - 1) →
        ∀ key : BitVec k, ∃ x, (∀ y, (Line.after capacity edits).Nearest key y ↔ y = x) ∧
          ((after capacity edits).lookup key).outcome =
            some (((Line.after capacity edits).get x).map (BitVec.ofInt v))) := by
  have hrun := Line.applyAll_wrap (v := v) hk (Line.new capacity) edits
  rw [Line.wrap_new] at hrun
  have hanswered := overflow_applyAll (new_capacity_lt hcapacity) edits
  refine ⟨?_, ?_⟩
  · rw [Traced.outcome_of_not_overflow hanswered, after, hrun]
  intro hgaps key
  have htiled : Line.Tiled k (Line.after capacity edits).start (Line.after capacity edits).closed :=
    Line.tiled_applyAll (Line.new capacity) trivial edits
  have hnear := Line.nearest_iff hk (Line.after capacity edits) key
  refine ⟨_, hnear, ?_⟩
  obtain ⟨hl, hu, hkey⟩ := (hnear _).mpr rfl
  have hfit : ∀ g ∈ (Line.after capacity edits).gaps, g.2 - g.1 ≤ 2 ^ (k - 1) := by
    intro g hg
    have := hgaps g hg
    omega
  rw [Traced.outcome_of_not_overflow (overflow_lookup ..), value_lookup, after, hrun,
    ← Line.get_wrap hk _ htiled hfit hl hu, hkey, Line.after]

/-- The keys of 16 bits come round twice. -/
private def twoLaps : List (Edit 16 32) :=
  [.exclude 0x5000 0x5001, .exclude 0xa000 0xa001, .exclude 0xf000 0xf001, .lowerFrom 0x1000 5,
    .exclude 0x4000 0x4001]

theorem lookup_after_twoLaps :
    (∀ g ∈ (Line.after 8 twoLaps).gaps, g.2 - g.1 - 1 ≤ 2 ^ (16 - 1) - 1) ∧
      ∃ x, (∀ y, (Line.after 8 twoLaps).Nearest 0x2000#16 y ↔ y = x) ∧
        ((after 8 twoLaps).lookup 0x2000).outcome =
          some (((Line.after 8 twoLaps).get x).map (BitVec.ofInt 32)) :=
  have hgaps := by decide +kernel
  ⟨hgaps, (lookup_after (by decide) (by decide) twoLaps).2 hgaps 0x2000⟩

/-- The line has an answer where the largest capacity leaves none. -/
theorem lookup_after_overflow :
    (Line.after (UInt64.size - 1) [(.exclude 10 12 : Edit 32 32)]).get 11 = .error .excluded ∧
      ((new (UInt64.size - 1) : History 32 32).applyAll [.exclude 10 12] >>=
        fun run => run.1.lookup 11).outcome = none := by
  decide

end History

end Renumber
