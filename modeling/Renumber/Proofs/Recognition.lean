import Renumber.Proofs.Unrolling

/-! Which keys a history recognizes. A key in a gap may be missed where one end of the gap is half
the key space away or more, and every other key is found, left out or too old. -/
namespace Renumber

variable {k v : ℕ}

namespace Line

theorem map_get_ne_notFound {α : Type} (l : Line) (x : ℤ) (f : ℤ → α) :
    (l.get x).map f ≠ .error .notFound := by
  intro hmissed
  cases hget : l.get x with
  | ok value =>
    rw [hget] at hmissed
    cases hmissed
  | error e =>
    rw [hget] at hmissed
    rcases get_eq_error hget with rfl | rfl <;> cases hmissed

theorem reading_ofInt (l : Line) {x : ℤ} (hl : l.start ≤ x) (hu : x < l.start + 2 ^ k) :
    l.reading (BitVec.ofInt k x) = x := by
  have h := l.reading_sub_start (BitVec.ofInt k x)
  rw [Serial.toNat_distance_ofInt, Int.emod_eq_of_lt (by omega) (by omega)] at h
  omega

/-- An exclusion from the open segment is accepted if it is narrower than half the key space and
starts within half the key space. -/
theorem apply_exclude (hk : 0 < k) (l : Line) (first width : ℤ) (hl : l.start ≤ first)
    (hu : first < l.start + 2 ^ (k - 1)) (hpos : 0 < width) (hhalf : width < 2 ^ (k - 1)) :
    l.apply (.exclude (BitVec.ofInt k first) (BitVec.ofInt k (first + width)) : History.Edit k v) =
      (l.advance first (first + width) (l.value + width), .ok ()) := by
  have htwo := Serial.two_pow_eq_two_mul hk
  have hwidth : ((BitVec.ofInt k (first + width)).toNat - (BitVec.ofInt k first).toNat : ℤ) %
      2 ^ k = width := by
    rw [← toNat_width, Serial.toNat_distance_ofInt, add_sub_cancel_left,
      Int.emod_eq_of_lt (by omega) (by omega)]
  have hread : l.reading (BitVec.ofInt k first) = first := l.reading_ofInt hl (by omega)
  simp only [apply, hwidth, hread, Reaches]
  rw [if_pos ⟨hpos, hhalf, hu⟩]

end Line

namespace History

theorem lookup_eq_pure {h : History k v} {key : BitVec k} (hfound : h.get key ≠ .error .notFound) :
    h.lookup key = pure (h.get key) := by
  cases hget : h.get key with
  | ok value =>
    rw [lookup, hget]
    rfl
  | error e =>
    rw [hget] at hfound
    rw [lookup, hget]
    cases e with
    | notFound => exact absurd rfl hfound
    | _ => rfl

theorem after_eq_wrap (hk : 0 < k) (capacity : ℕ) (edits : List (Edit k v)) :
    after capacity edits = (Line.after capacity edits).wrap := by
  have hrun := Line.applyAll_wrap hk (Line.new capacity) edits
  rw [Line.wrap_new] at hrun
  rw [after, hrun, Line.after]

theorem get_after (hk : 0 < k) (capacity : ℕ) (edits : List (Edit k v)) {key : BitVec k} {x : ℤ}
    (hnear : (Line.after capacity edits).Nearest key x)
    (hgaps : ∀ g ∈ (Line.after capacity edits).gaps, ¬Line.Adrift k g x) :
    (after capacity edits).get key =
      ((Line.after capacity edits).get x).map (BitVec.ofInt v) := by
  have htiled := Line.tiled_after capacity edits
  obtain ⟨hl, hu, rfl⟩ := hnear
  rw [after_eq_wrap hk]
  exact Line.get_wrap_of_not_adrift hk _ htiled hgaps hl hu

/-- After any edits, a key that is not adrift is recognized: it is answered as on the line, which
never misses a key, and nothing is reported. -/
theorem lookup_of_not_adrift (hk : 0 < k) (capacity : ℕ) (edits : List (Edit k v))
    (key : BitVec k) :
    ∃ x, (∀ y, (Line.after capacity edits).Nearest key y ↔ y = x) ∧
      ((∀ g ∈ (Line.after capacity edits).gaps, ¬Line.Adrift k g x) →
        ((after capacity edits).lookup key).value =
            ((Line.after capacity edits).get x).map (BitVec.ofInt v) ∧
          ((after capacity edits).lookup key).value ≠ .error .notFound ∧
          ((after capacity edits).lookup key).events = []) := by
  have hnear := Line.nearest_iff hk (Line.after capacity edits) key
  refine ⟨_, hnear, fun hgaps => ?_⟩
  have hget := get_after hk capacity edits ((hnear _).mpr rfl) hgaps
  have hfound : (after capacity edits).get key ≠ .error .notFound := by
    rw [hget]
    exact Line.map_get_ne_notFound _ _ _
  rw [lookup_eq_pure hfound]
  exact ⟨hget, hfound, rfl⟩

/-- Two exclusions that meet leave out half of all keys, from key 1 on. -/
private def halfGap : List (Edit 16 32) := [.exclude 1 16385, .exclude 16385 32769]

theorem lookup_of_not_adrift_halfGap :
    (∀ g ∈ (Line.after 4 halfGap).gaps, ¬Line.Adrift 16 g 2) ∧
      ((after 4 halfGap).lookup 2).value = .error .excluded ∧
      ((after 4 halfGap).lookup 2).events = [] := by
  have hgaps : ∀ g ∈ (Line.after 4 halfGap).gaps, ¬Line.Adrift 16 g 2 := by decide
  obtain ⟨x, hx, h⟩ := lookup_of_not_adrift (by decide) 4 halfGap 2
  obtain rfl : 2 = x := (hx 2).mp ⟨by decide, by decide, by decide⟩
  obtain ⟨hvalue, -, hevents⟩ := h hgaps
  exact ⟨hgaps, hvalue, hevents⟩

/-- The first key that was left out is exactly half the key space away from the end of its gap. It
is missed, and reported. -/
theorem lookup_notFound_halfGap :
    ((new 4).applyAll halfGap).value.2 = [.ok (), .ok ()] ∧
      ((after 4 halfGap).lookup 1).value = .error .notFound ∧
      ((after 4 halfGap).lookup 1).events = [.unmatchedKey 1 0 32769 2] := by
  decide

/-- The first key of a gap of half the key space is missed, if nothing before key 0 is retained. -/
theorem get_halfGap (hk : 2 ≤ k) (capacity : ℕ) (value : ℤ) :
    ((⟨capacity, [⟨0, 0, 0⟩], 1 + 2 ^ (k - 1), value⟩ : Line).wrap : History k v).get
      (BitVec.ofInt k 1) = .error .notFound := by
  have hk0 : 0 < k := by omega
  have htwo := Serial.two_pow_eq_two_mul hk0
  have hhalf : (1 : ℤ) < 2 ^ (k - 1) := one_lt_pow₀ (by decide) (by omega)
  have hopen : ¬Serial.isOnOrAfter (BitVec.ofInt k 1) (BitVec.ofInt k (1 + 2 ^ (k - 1))) := by
    rw [Serial.isOnOrAfter_ofInt hk0 (by omega) (by omega)]
    omega
  have hgap : ¬Serial.strictlyBetween (BitVec.ofInt k 1) (BitVec.ofInt k 0)
      (BitVec.ofInt k (1 + 2 ^ (k - 1))) := by
    -- the end of the gap is exactly half the space ahead, where the circle reads it as behind
    have hfar := Serial.toNat_distance_ofInt (w := k) (1 + 2 ^ (k - 1)) 1
    rw [add_sub_cancel_left, Int.emod_eq_of_lt (by omega) (by omega)] at hfar
    have hge : ¬Serial.distance (BitVec.ofInt k (1 + 2 ^ (k - 1))) (BitVec.ofInt k 1) <
        Serial.halfRange k := by
      rw [Serial.lt_halfRange_iff_toNat hk0]
      zify
      omega
    simp only [Serial.strictlyBetween, hge, decide_false, Bool.and_false, Bool.false_eq_true,
      not_false_eq_true]
  have hspan : ¬Serial.within (BitVec.ofInt k 1) (BitVec.ofInt k 0) (BitVec.ofInt k 0) := by
    have hback : ¬BitVec.ofInt k (0 - 1) < Serial.halfRange k := by
      rw [Serial.ofInt_lt_halfRange hk0 (by omega) (by omega)]
      decide
    rw [Serial.within, Serial.distance_ofInt, Serial.distance_ofInt]
    simp only [hback, decide_false, Bool.and_false, Bool.false_eq_true, not_false_eq_true]
  have holdest : ¬Serial.precedes (BitVec.ofInt k 1) (BitVec.ofInt k 0) := by
    rw [Serial.precedes_ofInt hk0 (by omega) (by omega)]
    decide
  simp only [Line.wrap, get, getBefore, List.map_cons, List.map_nil, Segment.wrap]
  rw [if_neg hopen, if_neg hgap, if_neg hspan, if_neg holdest]

/-- Keys of any width can be missed. Two exclusions that meet leave out half of all keys, and no gap
needs to be wider. -/
theorem exists_notFound (hk : 2 ≤ k) (capacity : ℕ) : ∃ edits : List (Edit k v),
    ((new capacity).applyAll edits).value.2 = [.ok (), .ok ()] ∧
      (Line.after capacity edits).gaps = [(0, 1 + 2 ^ (k - 1))] ∧
      ∃ key, ((after capacity edits).lookup key).value = .error .notFound := by
  have hk0 : 0 < k := by omega
  have hq : (0 : ℤ) < 2 ^ (k - 2) := Int.pow_pos (by decide)
  have hhalf : (2 : ℤ) ^ (k - 1) = 2 ^ (k - 2) + 2 ^ (k - 2) := by
    rw [show k - 1 = k - 2 + 1 by omega, Int.pow_succ]
    omega
  generalize (2 : ℤ) ^ (k - 2) = q at hq hhalf
  let edits : List (Edit k v) := [.exclude (BitVec.ofInt k 1) (BitVec.ofInt k (1 + q)),
    .exclude (BitVec.ofInt k (1 + q)) (BitVec.ofInt k (1 + q + q))]
  let middle : Line := ⟨max capacity 1, [⟨0, 0, 0⟩], 1 + q, q⟩
  have hnew : (Line.new capacity).start = 0 := rfl
  have hopen : middle.start = 1 + q := rfl
  have hmiddle :
      (Line.new capacity).advance 1 (1 + q) ((Line.new capacity).value + q) = middle := by
    simp [Line.advance, Line.new, middle, List.take_cons]
  have hlast : middle.advance (1 + q) (1 + q + q) (middle.value + q) =
      ⟨max capacity 1, [⟨0, 0, 0⟩], 1 + 2 ^ (k - 1), q + q⟩ := by
    rw [hhalf, ← add_assoc]
    exact if_pos rfl
  have hfirst := (Line.new capacity).apply_exclude (v := v) hk0 1 q (by omega) (by omega) hq
    (by omega)
  have hsecond := middle.apply_exclude (v := v) hk0 (1 + q) q (by omega) (by omega) hq (by omega)
  have hline : (Line.new capacity).applyAll edits =
      (⟨max capacity 1, [⟨0, 0, 0⟩], 1 + 2 ^ (k - 1), q + q⟩, [.ok (), .ok ()]) := by
    simp only [edits, Line.applyAll, hfirst, hmiddle, hsecond, hlast]
  have hrun := Line.applyAll_wrap hk0 (Line.new capacity) edits
  rw [Line.wrap_new, hline] at hrun
  refine ⟨edits, by rw [hrun], by rw [Line.after, hline]; rfl, BitVec.ofInt k 1, ?_⟩
  rw [value_lookup, after, hrun]
  exact get_halfGap hk _ _

end History

end Renumber
