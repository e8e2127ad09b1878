import Renumber.Proofs.Overflow
import Renumber.Proofs.Steps

/-! Ranges in the order of plain unsigned numbers. Among keys of the lower half of the key space the
circular order is the plain one, and the offsets of a numbering never leave that half: the ranges
stand one after the other up to the number after the head. -/
namespace Renumber

namespace Serial

variable {w : ℕ} {a b low high : BitVec w}

theorem pos_of_lt_halfRange (ha : a < halfRange w) : 0 < w := by
  cases w with
  | zero => exact absurd (Subsingleton.elim a (halfRange 0)) (BitVec.ne_of_lt ha)
  | succ w => exact Nat.succ_pos w

theorem isOnOrAfter_iff_le (ha : a < halfRange w) (hb : b < halfRange w) :
    isOnOrAfter a b ↔ b ≤ a := by
  have hw := pos_of_lt_halfRange ha
  have hiff := isOnOrAfter_ofInt hw (x := a.toNat) (y := b.toNat)
  rw [lt_halfRange_iff_toNat hw] at ha hb
  zify at ha hb
  rw [ofInt_toNat, ofInt_toNat] at hiff
  rw [hiff (by omega) (by omega), BitVec.le_def, Nat.cast_le]

theorem precedes_iff_lt (ha : a < halfRange w) (hb : b < halfRange w) : precedes a b ↔ a < b := by
  rw [precedes_iff_not, isOnOrAfter_iff_le ha hb, BitVec.not_le]

theorem within_iff_le (ha : a < halfRange w) (hlow : low < halfRange w)
    (hhigh : high < halfRange w) : within a low high ↔ low ≤ a ∧ a ≤ high := by
  have hfirst := isOnOrAfter_iff_le ha hlow
  have hlast := isOnOrAfter_iff_le hhigh ha
  rw [isOnOrAfter, decide_eq_true_iff] at hfirst hlast
  rw [within, Bool.and_eq_true, decide_eq_true_iff, decide_eq_true_iff, hfirst, hlast]

theorem strictlyBetween_iff_lt (ha : a < halfRange w) (hlow : low < halfRange w)
    (hhigh : high < halfRange w) : strictlyBetween a low high ↔ low < a ∧ a < high := by
  have hfirst := isOnOrAfter_iff_le ha hlow
  have hlast := isOnOrAfter_iff_le hhigh ha
  have hafter : distance a low = 0 ↔ a = low := sub_eq_zero
  have hbefore : distance high a = 0 ↔ high = a := sub_eq_zero
  rw [isOnOrAfter, decide_eq_true_iff] at hfirst hlast
  simp only [strictlyBetween, Bool.and_eq_true, bne_iff_ne, ne_eq, decide_eq_true_iff, hfirst,
    hlast, hafter, hbefore]
  bv_omega

/-- A stretch that would take up half of the circle or more is one that runs backwards. -/
theorem halfRange_le_distance_iff_lt (ha : a < halfRange w) (hb : b < halfRange w) :
    halfRange w ≤ distance a b ↔ a < b := by
  have hiff := isOnOrAfter_iff_le ha hb
  rw [isOnOrAfter, decide_eq_true_iff] at hiff
  rw [← BitVec.not_lt, hiff, BitVec.not_le]

end Serial

namespace History

variable {k v : ℕ}

/-- The closed ranges stand one after the other, in the plain order of their keys, before `next`. -/
def Stacked (next : BitVec k) : List (Span k v) → Prop
  | [] => True
  | s :: older => s.first ≤ s.last ∧ s.last < next ∧ Stacked s.first older

/-- The last key before each gap and the first one after it, up to `next`. -/
def gapsBefore (next : BitVec k) : List (Span k v) → List (BitVec k × BitVec k)
  | [] => []
  | s :: older => (s.last, next) :: gapsBefore s.first older

/-- What the history compares with the key is decided by the plain order: where the key lies, and
whether a stretch from the key to `stop` runs backwards. -/
structure Plain (h : History k v) (key : BitVec k) : Prop where
  onOrAfter : Serial.isOnOrAfter key h.start ↔ h.start ≤ key
  precedes : Serial.precedes key h.start ↔ key < h.start
  tooOld : Serial.precedes key h.oldestStart ↔ key < h.oldestStart
  within : ∀ s ∈ h.closed, Serial.within key s.first s.last ↔ s.first ≤ key ∧ key ≤ s.last
  between : ∀ gap ∈ gapsBefore h.start h.closed,
    Serial.strictlyBetween key gap.1 gap.2 ↔ gap.1 < key ∧ key < gap.2
  backwards : ∀ stop < Serial.halfRange k,
    Serial.halfRange k ≤ Serial.distance stop key ↔ stop < key

/-- The start of the oldest of the given ranges, or `next` if there is none. -/
def oldestFrom (next : BitVec k) (closed : List (Span k v)) : BitVec k :=
  (closed.getLast?.map Span.first).getD next

/-- The value of a key that lies before `next` in the plain order: the ranges tell which keys they
hold. -/
def readBefore (key next : BitVec k) (closed : List (Span k v)) : Except HistoryError (BitVec v) :=
  match closed.find? fun s => s.first ≤ key ∧ key ≤ s.last with
  | some s => .ok s.value
  | none => .error (if oldestFrom next closed ≤ key then .excluded else .tooOld)

/-- The history lies in the lower half of the key space, and reaches up to `top`. There it is read
and changed in the plain order of the keys. -/
structure Linear (h : History k v) (top : ℕ) : Prop where
  top_lt : top < 2 ^ (k - 1)
  start_le : h.start.toNat ≤ top
  stacked : Stacked h.start h.closed
  closed_lt : ∀ s ∈ h.closed, s.first.toNat < 2 ^ (k - 1) ∧ s.last.toNat < 2 ^ (k - 1)
  plain : ∀ key : BitVec k, key.toNat < 2 ^ (k - 1) → h.Plain key
  get : ∀ key : BitVec k, key.toNat < 2 ^ (k - 1) →
    h.get key = if h.start ≤ key then .ok h.value else readBefore key h.start h.closed
  exclude : ∀ first stop : BitVec k, first.toNat < 2 ^ (k - 1) → stop.toNat < 2 ^ (k - 1) →
    (h.exclude first stop).value =
      if stop ≤ first ∨ first < h.start then .error .reversed
      else .ok (h.advance first stop (h.value + (stop - first).setWidth v))
  lowerFrom : ∀ (key : BitVec k) (delta : BitVec v), key.toNat < 2 ^ (k - 1) →
    (h.lowerFrom key delta).value =
      if key < h.start then .error .reversed else .ok (h.advance key key (h.value - delta))

variable {h : History k v} {key next : BitVec k} {closed : List (Span k v)}

theorem Stacked.last_lt (hstacked : Stacked next closed) {s : Span k v} (hs : s ∈ closed) :
    s.first ≤ s.last ∧ s.last < next := by
  induction closed generalizing next with
  | nil => cases hs
  | cons newest older ih =>
    obtain ⟨hle, hlt, hold⟩ := hstacked
    rcases List.mem_cons.mp hs with rfl | hs
    · exact ⟨hle, hlt⟩
    · obtain ⟨hle', hlt'⟩ := ih hold hs
      exact ⟨hle', by bv_omega⟩

theorem Stacked.gap_le (hstacked : Stacked next closed) {gap : BitVec k × BitVec k}
    (hgap : gap ∈ gapsBefore next closed) : gap.1 < gap.2 ∧ gap.2 ≤ next := by
  induction closed generalizing next with
  | nil => cases hgap
  | cons newest older ih =>
    obtain ⟨hle, hlt, hold⟩ := hstacked
    rcases List.mem_cons.mp hgap with rfl | hgap
    · exact ⟨hlt, BitVec.le_refl next⟩
    · obtain ⟨hlt', hle'⟩ := ih hold hgap
      exact ⟨hlt', by bv_omega⟩

theorem oldestFrom_cons (next : BitVec k) (s : Span k v) (older : List (Span k v)) :
    oldestFrom next (s :: older) = oldestFrom s.first older := by
  cases h : older.getLast? <;> simp [oldestFrom, List.getLast?_cons, h]

theorem Stacked.oldestFrom_le (hstacked : Stacked next closed) : oldestFrom next closed ≤ next := by
  induction closed generalizing next with
  | nil => exact BitVec.le_refl next
  | cons s older ih =>
    obtain ⟨hle, hlt, hold⟩ := hstacked
    have := ih hold
    rw [oldestFrom_cons]
    bv_omega

theorem Stacked.find?_eq_none (hstacked : Stacked next closed) (hkey : next ≤ key) :
    (closed.find? fun s => s.first ≤ key ∧ key ≤ s.last) = none := by
  apply List.find?_eq_none.mpr
  intro s hs
  obtain ⟨-, hlt⟩ := hstacked.last_lt hs
  simp only [decide_eq_true_eq]
  bv_omega

theorem plain_of_stacked (hstacked : Stacked h.start h.closed)
    (hstart : h.start < Serial.halfRange k) (hkey : key < Serial.halfRange k) : h.Plain key := by
  have holdest : h.oldestStart < Serial.halfRange k :=
    Std.lt_of_le_of_lt hstacked.oldestFrom_le hstart
  refine ⟨Serial.isOnOrAfter_iff_le hkey hstart, Serial.precedes_iff_lt hkey hstart,
    Serial.precedes_iff_lt hkey holdest, fun s hs => ?_, fun gap hgap => ?_,
    fun stop hstop => Serial.halfRange_le_distance_iff_lt hstop hkey⟩
  · obtain ⟨hle, hlt⟩ := hstacked.last_lt hs
    exact Serial.within_iff_le hkey (by bv_omega) (by bv_omega)
  · obtain ⟨hlt, hle⟩ := hstacked.gap_le hgap
    exact Serial.strictlyBetween_iff_lt hkey (by bv_omega) (by bv_omega)

/-- The scan of the closed ranges finds the one that holds the key in the plain order. -/
theorem getBefore_eq_readBefore (hstacked : Stacked next closed)
    (hnext : next < Serial.halfRange k) (hkey : key < next) :
    getBefore key next closed = readBefore key next closed := by
  induction closed generalizing next with
  | nil =>
    have hprecedes := (Serial.precedes_iff_lt (Std.lt_trans hkey hnext) hnext).mpr hkey
    have holdest : ¬next ≤ key := BitVec.not_le.mpr hkey
    simp [getBefore, readBefore, oldestFrom, hprecedes, holdest]
  | cons s older ih =>
    obtain ⟨hle, hlt, hold⟩ := hstacked
    have hlower : key < Serial.halfRange k := Std.lt_trans hkey hnext
    have hlast : s.last < Serial.halfRange k := Std.lt_trans hlt hnext
    have hfirst : s.first < Serial.halfRange k := Std.lt_of_le_of_lt hle hlast
    rw [getBefore, readBefore, oldestFrom_cons]
    by_cases hgap : s.last < key
    · -- the key lies in the gap before `next`, and no older range holds it
      have hout : ¬(s.first ≤ key ∧ key ≤ s.last) := by bv_omega
      have holdest := hold.oldestFrom_le
      rw [if_pos ((Serial.strictlyBetween_iff_lt hlower hlast hnext).mpr ⟨hgap, hkey⟩),
        List.find?_cons_of_neg (by simpa using hout), hold.find?_eq_none (by bv_omega)]
      simp only
      rw [if_pos (by bv_omega)]
    rw [if_neg fun h => hgap ((Serial.strictlyBetween_iff_lt hlower hlast hnext).mp h).1]
    by_cases hin : s.first ≤ key
    · have hmem : s.first ≤ key ∧ key ≤ s.last := ⟨hin, BitVec.not_lt.mp hgap⟩
      rw [if_pos ((Serial.within_iff_le hlower hfirst hlast).mpr hmem),
        List.find?_cons_of_pos (by simpa using hmem)]
    · have hout : ¬(s.first ≤ key ∧ key ≤ s.last) := fun h => hin h.1
      rw [if_neg (mt (Serial.within_iff_le hlower hfirst hlast).mp hout),
        List.find?_cons_of_neg (by simpa using hout), ih hold hfirst (BitVec.not_le.mp hin)]
      rfl

theorem linear_of_stacked (hk : 0 < k) {top : ℕ} (htop : top < 2 ^ (k - 1))
    (hstart : h.start.toNat ≤ top) (hstacked : Stacked h.start h.closed) : h.Linear top := by
  have hlower := Serial.lt_halfRange_iff_toNat hk
  have hstart' : h.start < Serial.halfRange k := (hlower h.start).mpr (by omega)
  have hplain : ∀ key : BitVec k, key.toNat < 2 ^ (k - 1) → h.Plain key := fun key hkey =>
    plain_of_stacked hstacked hstart' ((hlower key).mpr hkey)
  refine ⟨htop, hstart, hstacked, fun s hs => ?_, hplain, fun key hkey => ?_,
    fun first stop hfirst hstop => ?_, fun key delta hkey => ?_⟩
  · obtain ⟨hle, hlt⟩ := hstacked.last_lt hs
    rw [BitVec.le_def] at hle
    rw [BitVec.lt_def] at hlt
    omega
  · rw [History.get]
    by_cases hon : h.start ≤ key
    · rw [if_pos ((hplain key hkey).onOrAfter.mpr hon), if_pos hon]
    · rw [if_neg (mt (hplain key hkey).onOrAfter.mp hon), if_neg hon,
        getBefore_eq_readBefore hstacked hstart' (BitVec.not_le.mp hon)]
  · have hrefused : (Serial.distance stop first = 0 ∨
        Serial.halfRange k ≤ Serial.distance stop first ∨ Serial.precedes first h.start) ↔
        stop ≤ first ∨ first < h.start := by
      have hzero : Serial.distance stop first = 0 ↔ stop = first := sub_eq_zero
      rw [hzero, (hplain first hfirst).backwards stop ((hlower stop).mpr hstop),
        (hplain first hfirst).precedes]
      bv_omega
    rw [value_exclude]
    exact if_congr hrefused rfl rfl
  · rw [value_lowerFrom]
    exact if_congr (hplain key hkey).precedes rfl rfl

end History

namespace Line

variable {k v : ℕ} {l : Line}

theorem stacked_wrap {next : ℤ} {closed : List Segment} (htiled : Tiled k next closed)
    (hpos : ∀ s ∈ closed, 0 ≤ s.first) (hnonneg : 0 ≤ next) (hnext : next < 2 ^ k) :
    History.Stacked (BitVec.ofInt k next) (closed.map (Segment.wrap (v := v))) := by
  induction closed generalizing next with
  | nil => trivial
  | cons s older ih =>
    obtain ⟨hle, -, hlt, hold⟩ := htiled
    have hs := hpos s (List.mem_cons_self ..)
    have hfirst := Serial.toNat_ofInt_of_nonneg (w := k) (x := s.first) (by omega) (by omega)
    have hlast := Serial.toNat_ofInt_of_nonneg (w := k) (x := s.last) (by omega) (by omega)
    have hnext' := Serial.toNat_ofInt_of_nonneg (w := k) hnonneg hnext
    refine ⟨?_, ?_, ih hold (fun s' hs' => hpos s' (List.mem_cons_of_mem _ hs')) hs (by omega)⟩
    · rw [BitVec.le_def]
      simp only [Segment.wrap]
      omega
    · rw [BitVec.lt_def]
      simp only [Segment.wrap]
      omega

end Line

namespace Numbering

/-- Where nothing came in yet, there is nothing to reserve, and no offset is lowered. -/
theorem reserve_of_blank {n : Numbering} (hhead : n.head = none) (hlast : n.lastOutgoing = none)
    (count : BitVec 16) : n.reserve count = pure (n, .ok []) := by
  have hnext : n.nextOutgoing = pure (.ok none) := by
    unfold nextOutgoing
    rw [hhead, hlast]
    rfl
  rw [reserve, hnext, pure_bind]

theorem Follows.linear {history t : ℕ} {n : Numbering} {l : Line} {g : Ledger} {head : BitVec 64}
    (h : Follows history t n l g) (ht : t < 2 ^ 47) (hhead : n.head = some head) :
    n.offsets.Linear (head.toNat + 1) := by
  have hfar := (h.led head hhead).far
  have hstart := (h.led head hhead).start
  have hnonneg := h.kept.nonneg.start
  have hread := Serial.toNat_ofInt_of_nonneg (w := 64) hnonneg (by omega)
  apply History.linear_of_stacked (by decide) (by omega)
  · rw [h.kept.offsets]
    simp only [Line.wrap]
    omega
  · rw [h.kept.offsets]
    exact Line.stacked_wrap h.kept.tiled h.kept.nonneg.closed hnonneg (by omega)

/-- After any run on a new numbering, restarts included, the unwrapper knows the head. Before the
first packet nothing was handed out and nothing entered, so that a reservation gives no number and
lowers no offset. From then on the offsets are ranges in the plain order of their keys, up to the
number after the head at most, in the lower half of the key space: there, every comparison on the
circle is the plain one. There is such a state if the ranges of a full history can be counted. -/
theorem offsets_linear {history : ℕ} (hhistory : history + 1 < UInt64.size) (requests : List Request)
    (hlen : requests.length < 2 ^ 47) :
    let n := (new history).after requests
    ((new history).serveAll requests).overflow = false ∧
      n.unwrapper.highest = n.head ∧
      (n.head = none → n.lastOutgoing = none ∧ n.offsets = ⟨max history 1, [], 0, 0⟩ ∧
        ∀ count, n.reserve count = pure (n, .ok [])) ∧
      ∀ head, n.head = some head → n.offsets.Linear (head.toNat + 1) := by
  intro n
  obtain ⟨l, g, h⟩ := follows_run history requests hlen.le
  refine ⟨overflow_serveAll (History.new_capacity_lt hhistory) _, h.highest, fun hhead => ?_,
    fun head hhead => h.linear hlen hhead⟩
  obtain ⟨hlast, hoffsets, -⟩ := h.fresh hhead
  exact ⟨hlast, hoffsets, reserve_of_blank hhead hlast⟩

/-- Number 12 is left out and two numbers are reserved, then the source starts anew at 65535 and
leaves out 0, the number after the wrap. -/
private def overWrap : List Request :=
  [.inject 3, .forward ⟨7, 10, 0, [1], 0⟩, .forward ⟨7, 12, 0, [], 0⟩, .inject 2, .restart,
    .forward ⟨7, 65535, 0, [1], 0⟩, .forward ⟨7, 0, 0, [], 0⟩, .forward ⟨7, 3, 0, [1], 0⟩, .inject 1]

theorem offsets_linear_overWrap :
    overWrap.length < 2 ^ 47 ∧ ((new 4).after (overWrap.take 1)).head = none ∧
      ((new 4).after (overWrap.take 1)).lastOutgoing = none ∧
      ((new 4).after overWrap).head = some 65539 ∧
      ((new 4).after overWrap).offsets.closed.map (fun s => (s.first, s.last)) =
        [(65537, 65539), (0, 65535)] ∧
      ((new 4).after overWrap).offsets.Linear 65540 := by
  have hhistory : 4 + 1 < UInt64.size := by decide
  obtain ⟨-, -, hblank, -⟩ := offsets_linear hhistory (overWrap.take 1) (by decide)
  obtain ⟨-, -, -, hlinear⟩ := offsets_linear hhistory overWrap (by decide)
  exact ⟨by decide, by decide, (hblank (by decide)).1, by decide, by decide,
    hlinear 65539 (by decide)⟩

/-- The largest history has no ranges to speak of after the first reservation. -/
theorem offsets_linear_overflow :
    ((new (UInt64.size - 1)).serveAll [.forward ⟨7, 10, 0, [1], 0⟩, .inject 1]).outcome.isNone := by
  decide

end Numbering

end Renumber
