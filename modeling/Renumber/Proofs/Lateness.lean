import Renumber.Proofs.Overflow
import Renumber.Proofs.Steps

/-! How late packets are told apart: those before all offsets that are kept, those whose number was
left out, and those that are forwarded. -/
namespace Renumber

namespace Line

variable {k : ℕ} {l : Line} {g : Ledger} {next x : ℤ} {closed : List Segment}

theorem Tiled.oldestFrom_le_first (h : Tiled k next closed) {s : Segment} (hs : s ∈ closed) :
    oldestFrom next closed ≤ s.first := by
  induction closed generalizing next with
  | nil => cases hs
  | cons newest older ih =>
    obtain ⟨-, -, -, hold⟩ := h
    rw [oldestFrom_cons]
    rcases List.mem_cons.mp hs with rfl | hs
    · exact hold.oldestFrom_le
    · exact ih hold hs

/-- What no segment holds lies in a gap or before the oldest segment. -/
theorem Tiled.exists_gap (h : Tiled k next closed)
    (hnone : (closed.find? fun s => s.first ≤ x ∧ x ≤ s.last) = none)
    (hlow : oldestFrom next closed ≤ x) (hx : x < next) :
    ∃ gap ∈ gapsBefore next closed, gap.1 < x ∧ x < gap.2 := by
  induction closed generalizing next with
  | nil =>
    have hlow : next ≤ x := hlow
    omega
  | cons s older ih =>
    obtain ⟨-, -, -, hold⟩ := h
    rw [oldestFrom_cons] at hlow
    simp only [List.find?_eq_none, List.mem_cons, forall_eq_or_imp] at hnone
    obtain ⟨hs, hrest⟩ := hnone
    simp only [decide_eq_true_eq, not_and, not_le] at hs
    rcases lt_or_ge x s.first with hbefore | hfrom
    · obtain ⟨gap, hgap, hin⟩ := ih hold (List.find?_eq_none.mpr hrest) hlow hbefore
      exact ⟨gap, List.mem_cons_of_mem _ hgap, hin⟩
    · exact ⟨(s.last, next), List.mem_cons_self .., hs hfrom, hx⟩

theorem get_eq_tooOld_iff (h : Tiled k l.start l.closed) (x : ℤ) :
    l.get x = .error .tooOld ↔ x < oldestFrom l.start l.closed := by
  constructor
  · intro hget
    unfold get at hget
    split at hget
    · cases hget
    split at hget
    · cases hget
    split at hget
    · cases hget
    · omega
  · intro hx
    have hstart := h.oldestFrom_le
    have hnone : (l.closed.find? fun s => s.first ≤ x ∧ x ≤ s.last) = none := by
      apply List.find?_eq_none.mpr
      intro s hs
      have := h.oldestFrom_le_first hs
      simp only [decide_eq_true_eq]
      omega
    rw [get, if_neg (by omega), hnone]
    simp only
    rw [if_neg (by omega)]

/-- On a line that keeps the books, what is left out is what was entered so. -/
theorem Records.get_eq_excluded_iff (h : l.Records g) (htiled : Tiled k l.start l.closed)
    (hx : oldestFrom l.start l.closed ≤ x) : l.get x = .error .excluded ↔ x ∈ g.dropped := by
  constructor
  · intro hget
    unfold Line.get at hget
    split at hget
    · cases hget
    split at hget
    · cases hget
    · next hstart _ hnone =>
      obtain ⟨gap, hgap, hlow, hhigh⟩ := htiled.exists_gap hnone hx (by omega)
      exact h.gaps gap hgap x hlow hhigh
  · intro hmem
    cases hget : l.get x with
    | ok v => exact absurd hmem (h.get hget).1
    | error e =>
      rcases get_eq_error hget with rfl | rfl
      · rfl
      · have := (get_eq_tooOld_iff htiled x).mp hget
        omega

/-- As long as older segments were not forgotten, nothing is too old but what was left out. -/
theorem Records.length_of_tooOld (h : l.Records g) (hbounded : l.closed.length ≤ l.capacity)
    (hx : 0 ≤ x) (hlt : x < oldestFrom l.start l.closed) (hmem : x ∉ g.dropped) :
    l.closed.length = l.capacity := by
  by_contra hne
  exact hmem (h.origin (by omega) x hx hlt)

theorem Nonneg.oldestFrom (h : l.Nonneg) : 0 ≤ Line.oldestFrom l.start l.closed := by
  unfold Line.oldestFrom
  cases hlast : l.closed.getLast? with
  | none => exact h.start
  | some s => exact h.closed s (List.mem_of_getLast? hlast)

theorem oldestStart_wrap {v : ℕ} (l : Line) :
    (l.wrap : History k v).oldestStart = BitVec.ofInt k (oldestFrom l.start l.closed) := by
  unfold History.oldestStart oldestFrom wrap
  rw [List.getLast?_map]
  cases l.closed.getLast? <;> rfl

end Line

theorem Kept.toNat_oldestStart {history : ℕ} {offsets : History 64 64} {l : Line} {g : Ledger}
    (h : Kept history offsets l g) (hl : l.start ≤ 2 ^ 63) :
    (offsets.oldestStart.toNat : ℤ) = Line.oldestFrom l.start l.closed := by
  have hle := h.tiled.oldestFrom_le
  rw [h.offsets, Line.oldestStart_wrap]
  exact Serial.toNat_ofInt_of_nonneg h.nonneg.oldestFrom (by omega)

namespace Numbering

/-- The exchanges from the last one on that started the incoming numbers anew. -/
def sinceRebase (xs : List Exchange) : List Exchange :=
  xs.foldl (fun kept x => (if x.rebases then [] else kept) ++ [x]) []

/-- The extended incoming numbers that were answered as dropped padding since the incoming numbers
started last. -/
def leftOut (xs : List Exchange) : List (BitVec 64) := (sinceRebase xs).filterMap Exchange.dropped

variable {history t : ℕ} {n : Numbering} {l : Line} {g : Ledger} {p : Packet} {head e : BitVec 64}

theorem leftOut_concat (xs : List Exchange) (x : Exchange) :
    leftOut (xs ++ [x]) = (if x.rebases then [] else leftOut xs) ++ x.dropped.toList := by
  unfold leftOut sinceRebase
  rw [List.foldl_append, List.foldl_cons, List.foldl_nil, List.filterMap_append]
  cases x.rebases <;> cases hd : x.dropped <;> simp [hd]

theorem dropped_add (g : Ledger) (x : Exchange) (k : ℤ) :
    k ∈ (g.add x).dropped ↔ (x.rebases = false ∧ k ∈ g.dropped) ∨ ∃ e ∈ x.dropped, k = e.toNat := by
  have hmeet : k ∈ (g.meet x).dropped ↔ x.rebases = false ∧ k ∈ g.dropped := by
    cases hr : x.rebases with
    | true => simp [Ledger.meet_of_rebases g hr]
    | false => simp [Ledger.meet_of_not_rebases g hr]
  have hadd : (g.add x).dropped =
      x.dropped.elim (g.meet x).dropped fun e => insert (e.toNat : ℤ) (g.meet x).dropped := by
    unfold Ledger.add
    cases x.dropped <;> cases x.burst <;> rfl
  rw [hadd, ← hmeet]
  cases x.dropped with
  | none => simp
  | some e => simp [or_comm]

/-- The books have as left out what was answered as dropped padding. -/
theorem mem_dropped_iff (xs : List Exchange) (e : BitVec 64) :
    (e.toNat : ℤ) ∈ (xs.foldl Ledger.add {}).dropped ↔ e ∈ leftOut xs := by
  induction xs using List.reverseRecOn with
  | nil => simp [leftOut, sinceRebase]
  | append_singleton xs x ih =>
    rw [List.foldl_append, List.foldl_cons, List.foldl_nil, dropped_add, ih, leftOut_concat]
    cases x.rebases <;> cases x.dropped <;> simp [BitVec.toNat_inj]

namespace Follows

/-- A packet behind the head is answered as its number reads on the line. -/
theorem receive_late (h : Follows history t n l g) (ht : t < 2 ^ 47) (hdue : n.due p = false)
    (hhead : n.head = some head) (hext : Exchange.extended ⟨n, .forward p⟩ = some e)
    (hlt : e < head) : (n.receive p).value.2 = match l.get e.toNat with
      | .ok v => .ok ⟨e, e - BitVec.ofInt 64 v⟩
      | .error .tooOld => .error (.tooOld e)
      | .error _ => .error (.excluded e) := by
  have hm := h.source (some p.ssrc)
  have hreceive : (n.receive p).value = (place { n with ssrc := some p.ssrc } p e).value := by
    cases h.arrival ht p with
    | ahead e' _ hext' hpasses _ _ =>
      obtain rfl := Option.some.inj (hext.symm.trans hext')
      obtain ⟨hahead, -⟩ := hpasses head hhead hdue
      rw [BitVec.lt_def] at hlt
      omega
    | behind _ e' _ _ hrec hext' _ =>
      obtain rfl := Option.some.inj (hext.symm.trans hext')
      exact hrec
    | beforeStart _ _ _ hext' _ =>
      rw [hext] at hext'
      cases hext'
  obtain ⟨hplace, hread⟩ := hm.place_late ht p hhead hlt
  rw [hreceive, hplace, value_placeLate, hread]
  cases hget : l.get e.toNat with
  | ok v => rfl
  | error error =>
    rcases Line.get_eq_error hget with rfl | rfl <;> rfl

/-- A packet behind the head is too old before all that is kept. Otherwise it is refused as left out,
or forwarded. -/
theorem receive_late_iff (h : Follows history t n l g) (ht : t < 2 ^ 47) (hdue : n.due p = false)
    (hhead : n.head = some head) (hext : Exchange.extended ⟨n, .forward p⟩ = some e)
    (hlt : e < head) :
    ((n.receive p).value.2 = .error (.tooOld e) ↔ e < n.offsets.oldestStart) ∧
      ((n.receive p).value.2 = .error (.excluded e) ↔
        n.offsets.oldestStart ≤ e ∧ (e.toNat : ℤ) ∈ g.dropped) ∧
      ((∃ spot, (n.receive p).value.2 = .ok spot) ↔
        n.offsets.oldestStart ≤ e ∧ (e.toNat : ℤ) ∉ g.dropped) := by
  have hstart := (h.led head hhead).start
  have hfar := (h.led head hhead).far
  have holdest := h.kept.toNat_oldestStart (by omega)
  have htooOld := Line.get_eq_tooOld_iff h.kept.tiled e.toNat
  rw [h.receive_late ht hdue hhead hext hlt, BitVec.lt_def, BitVec.le_def]
  rw [← holdest, Nat.cast_lt] at htooOld
  have hexcluded := h.kept.records.get_eq_excluded_iff h.kept.tiled (x := e.toNat)
  rw [← holdest, Nat.cast_le] at hexcluded
  cases hget : l.get e.toNat with
  | ok v =>
    have hmem := (h.kept.records.get hget).1
    simp only [hget, reduceCtorEq, false_iff, not_lt] at htooOld
    simp [hmem, htooOld]
  | error error =>
    rcases Line.get_eq_error hget with rfl | rfl
    · simp only [hget, Except.error.injEq, reduceCtorEq, false_iff, not_lt] at htooOld
      have hmem := (hexcluded htooOld).mp hget
      simp [hmem, htooOld]
    · have hold := htooOld.mp hget
      simp [hold]

/-- What is too old but was not left out lies before as many closed ranges as are kept at most. -/
theorem length_of_tooOld (h : Follows history t n l g) (ht : t < 2 ^ 47)
    (hhead : n.head = some head) (hold : e < n.offsets.oldestStart)
    (hmem : (e.toNat : ℤ) ∉ g.dropped) :
    n.offsets.closed.length = max history 1 ∧ ∀ s ∈ n.offsets.closed, e < s.first := by
  have hstart := (h.led head hhead).start
  have hfar := (h.led head hhead).far
  have holdest := h.kept.toNat_oldestStart (by omega)
  rw [BitVec.lt_def] at hold
  have hlt : (e.toNat : ℤ) < Line.oldestFrom l.start l.closed := by omega
  have hlength := h.kept.records.length_of_tooOld h.kept.bounded (by omega) hlt hmem
  rw [h.kept.offsets]
  constructor
  · rw [← h.kept.capacity, ← hlength]
    exact List.length_map ..
  · intro s hs
    obtain ⟨segment, hsegment, rfl⟩ := List.mem_map.mp hs
    have hfirst := h.kept.tiled.oldestFrom_le_first hsegment
    have hlast := h.kept.tiled.last_lt hsegment
    have hle := (h.kept.tiled.bounds hsegment).1
    have hread : ((BitVec.ofInt 64 segment.first).toNat : ℤ) = segment.first :=
      Serial.toNat_ofInt_of_nonneg (by omega) (by omega)
    rw [BitVec.lt_def]
    simp only [Segment.wrap]
    omega

end Follows

/-- In any run on a new numbering, restarts included, a packet behind the head of its stream is
answered in one of three ways, if the ranges of a full history can be counted. It is too old if its
number lies before everything that is kept; otherwise it is refused as left out if its number was,
and forwarded if not. And a number that was not left out is too old only when the history is full,
and all of it lies after the number. -/
theorem late_answer_iff {history : ℕ} (hhistory : history + 1 < UInt64.size) (requests : List Request)
    (hlen : requests.length < 2 ^ 47) (p : Packet) (k head : BitVec 64) :
    let n := (new history).after requests
    let answer := (n.forward p).value.2
    let out := leftOut ((new history).exchanges requests)
    n.restartPending = false → n.ssrc = some p.ssrc → n.head = some head →
      Exchange.extended ⟨n, .forward p⟩ = some k → k < head →
      ((new history).serveAll (requests ++ [.forward p])).overflow = false ∧
        (answer = .error (.tooOld k) ↔ k < n.offsets.oldestStart) ∧
        (answer = .error (.excluded k) ↔ n.offsets.oldestStart ≤ k ∧ k ∈ out) ∧
        ((∃ q, answer = .ok q) ↔ n.offsets.oldestStart ≤ k ∧ k ∉ out) ∧
        (answer = .error (.tooOld k) → k ∉ out →
          n.offsets.closed.length = max history 1 ∧ ∀ s ∈ n.offsets.closed, k < s.first) := by
  intro n answer out hpending hssrc hhead hext hlt
  obtain ⟨l, h⟩ := follows_books history requests hlen.le
  have hdue : n.due p = false := by simp [due, hpending, hssrc]
  have hmem := mem_dropped_iff ((new history).exchanges requests) k
  obtain ⟨hold, hexcluded, hok⟩ := h.receive_late_iff hlen hdue hhead hext hlt
  rw [forward_eq_error_iff, forward_eq_error_iff, forward_eq_ok_iff]
  rw [hmem] at hexcluded hok
  refine ⟨overflow_serveAll (History.new_capacity_lt hhistory) _, hold, hexcluded, hok,
    fun htooOld hout => ?_⟩
  exact h.length_of_tooOld hlen hhead (hold.mp htooOld) (mt hmem.mp hout)

/-- Numbers 11 and 13 are left out, and one closed range is kept. -/
private def thinned : List Request :=
  [.forward ⟨7, 10, 0, [1], 0⟩, .forward ⟨7, 11, 0, [], 0⟩, .forward ⟨7, 12, 0, [1], 0⟩,
    .forward ⟨7, 13, 0, [], 0⟩, .forward ⟨7, 14, 0, [1], 0⟩]

theorem late_answer_thinned :
    (((new 1).after thinned).forward ⟨7, 10, 0, [1], 0⟩).value.2 = .error (.tooOld 10) ∧
      ((new 1).after thinned).offsets.closed.length = 1 ∧
      (((new 1).after thinned).forward ⟨7, 13, 0, [1], 0⟩).value.2 = .error (.excluded 13) ∧
      ∃ q, (((new 1).after thinned).forward ⟨7, 12, 0, [1], 0⟩).value.2 = .ok q := by
  have hlen : thinned.length < 2 ^ 47 := by decide
  have hhistory : 1 + 1 < UInt64.size := by decide
  obtain ⟨-, hold, -, -, hfull⟩ := late_answer_iff hhistory thinned hlen ⟨7, 10, 0, [1], 0⟩ 10 14
    (by decide) (by decide) (by decide) (by decide) (by decide)
  obtain ⟨-, -, hexcluded, -, -⟩ := late_answer_iff hhistory thinned hlen ⟨7, 13, 0, [1], 0⟩ 13 14
    (by decide) (by decide) (by decide) (by decide) (by decide)
  obtain ⟨-, -, -, hok, -⟩ := late_answer_iff hhistory thinned hlen ⟨7, 12, 0, [1], 0⟩ 12 14
    (by decide) (by decide) (by decide) (by decide) (by decide)
  have htooOld := hold.mpr (by decide)
  exact ⟨htooOld, (hfull htooOld (by decide)).1, hexcluded.mpr (by decide), hok.mpr (by decide)⟩

/-- Nothing was left out with the largest history, and yet the late packet has no answer. -/
theorem late_answer_overflow :
    let requests := [.forward ⟨7, 10, 0, [1], 0⟩, .inject 1]
    let n := (new (UInt64.size - 1)).after requests
    n.restartPending = false ∧ n.ssrc = some 7 ∧ n.head = some 10 ∧
      Exchange.extended ⟨n, .forward ⟨7, 9, 0, [1], 0⟩⟩ = some 9 ∧
      leftOut ((new (UInt64.size - 1)).exchanges requests) = [] ∧
      ((new (UInt64.size - 1)).serveAll
        (requests ++ [.forward ⟨7, 9, 0, [1], 0⟩])).outcome.isNone := by
  decide

end Numbering

end Renumber
