import Renumber.Proofs.Recognition

/-! What an accepted exclusion does at once. Every key from its end on has the raised value. The
keys that it leaves out are recognized as long as they come after the newest closed range, which may
fail once exclusions that meet have left out half of all keys. -/
namespace Renumber

variable {k v : ℕ}

namespace Serial

variable {w : ℕ} {key first stop : BitVec w}

theorem distance_stop (key first stop : BitVec w) :
    distance stop key = distance stop first - distance key first := by
  unfold distance
  grind

theorem toNat_distance_stop (h : distance key first < distance stop first) :
    (distance stop key).toNat = (distance stop first).toNat - (distance key first).toNat := by
  rw [distance_stop key first stop]
  exact BitVec.toNat_sub_of_le (BitVec.le_of_lt h)

/-- The keys of an interval shorter than half the space come before its end. -/
theorem not_isOnOrAfter_stop (hw : 0 < w) (h : distance key first < distance stop first)
    (hhalf : distance stop first < halfRange w) : ¬isOnOrAfter key stop := by
  have hdist := toNat_distance_stop h
  have htwo : 2 ^ w = 2 * 2 ^ (w - 1) := by exact_mod_cast two_pow_eq_two_mul hw
  rw [BitVec.lt_def] at h
  rw [lt_halfRange_iff_toNat hw] at hhalf
  rw [isOnOrAfter_iff_toNat hw, ← neg_distance stop key, BitVec.toNat_neg,
    Nat.mod_eq_of_lt (by omega)]
  omega

end Serial

/-- The key comes after the closed range. -/
def Span.EndsBefore (s : Span k v) (key : BitVec k) : Prop :=
  key ≠ s.last ∧ Serial.isOnOrAfter key s.last

instance (s : Span k v) (key : BitVec k) : Decidable (s.EndsBefore key) :=
  inferInstanceAs (Decidable (_ ∧ _))

/-- In the last part of a gap, shorter than half the space, the start of the gap alone decides which
keys it holds. -/
theorem Span.strictlyBetween_iff (s : Span k v) {key first stop : BitVec k}
    (h : Serial.distance key first < Serial.distance stop first)
    (hhalf : Serial.distance stop first < Serial.halfRange k) :
    Serial.strictlyBetween key s.last stop ↔ s.EndsBefore key := by
  have hdist := Serial.toNat_distance_stop h
  have hsame : Serial.distance key s.last = 0 ↔ key = s.last := by
    unfold Serial.distance
    grind
  rw [BitVec.lt_def] at h hhalf
  have hpos : Serial.distance stop key ≠ 0 := by
    intro hzero
    rw [hzero, show (0 : BitVec k).toNat = 0 from BitVec.toNat_zero] at hdist
    omega
  have hlt : Serial.distance stop key < Serial.halfRange k := by
    rw [BitVec.lt_def]
    omega
  simp only [Serial.strictlyBetween, hpos, hlt, EndsBefore, Serial.isOnOrAfter, Bool.and_eq_true,
    bne_iff_ne, ne_eq, not_false_eq_true, decide_true, and_true, hsame]

namespace Line

theorem after_concat (capacity : ℕ) (edits : List (History.Edit k v)) (edit : History.Edit k v) :
    after capacity (edits ++ [edit]) = ((after capacity edits).apply edit).1 := by
  unfold after
  generalize new capacity = l
  induction edits generalizing l with
  | nil => rfl
  | cons first rest ih => exact ih (l.apply first).1

/-- The newest closed segment ends where the open one is closed, or earlier. -/
theorem advance_last_lt {l : Line} (h : Tiled k l.start l.closed) {stop next value : ℤ}
    {s : Segment} {older : List Segment}
    (hclosed : (l.advance stop next value).closed = s :: older) : s.last < stop := by
  unfold advance at hclosed
  split at hclosed
  · rw [show l.closed = s :: older from hclosed] at h
    obtain ⟨-, -, hlt, -⟩ := h
    omega
  · obtain ⟨n, hn⟩ : ∃ n, l.capacity = n + 1 := by
      cases hcap : l.capacity with
      | zero => simp [hcap] at hclosed
      | succ n => exact ⟨n, rfl⟩
    simp only [hn, List.take_succ_cons] at hclosed
    obtain ⟨rfl, -⟩ := List.cons.inj hclosed
    simp only
    omega

end Line

namespace History

theorem advance_capacity (h : History k v) (stop next : BitVec k) (value : BitVec v) :
    (h.advance stop next value).capacity = h.capacity := by
  unfold advance
  split <;> rfl

theorem advance_start (h : History k v) (stop next : BitVec k) (value : BitVec v) :
    (h.advance stop next value).start = next := by
  unfold advance
  split <;> rfl

theorem advance_value (h : History k v) (stop next : BitVec k) (value : BitVec v) :
    (h.advance stop next value).value = value := by
  unfold advance
  split <;> rfl

/-- A change where the open range starts is made in place, so only the last one of two is seen. -/
theorem advance_advance (h : History k v) (stop middle next : BitVec k) (value value' : BitVec v) :
    (h.advance stop middle value).advance middle next value' = h.advance stop next value' := by
  have hinPlace : (h.advance stop middle value).advance middle next value' =
      { h.advance stop middle value with start := next, value := value' } :=
    if_pos (h.advance_start stop middle value).symm
  rw [hinPlace]
  unfold advance
  split <;> rfl

variable {h h' : History k v} {first stop : BitVec k}

/-- An accepted exclusion is narrower than half the space, and starts in the open range. -/
theorem exclude_eq_ok (hok : (h.exclude first stop).value = .ok h') :
    Serial.distance stop first ≠ 0 ∧ Serial.distance stop first < Serial.halfRange k ∧
      h' = h.advance first stop (h.value + (Serial.distance stop first).setWidth v) := by
  rw [value_exclude] at hok
  split at hok
  · cases hok
  · next hc =>
    rw [not_or, not_or, BitVec.not_le] at hc
    exact ⟨hc.1, hc.2.1, (Except.ok.inj hok).symm⟩

theorem after_concat (capacity : ℕ) (edits : List (Edit k v)) (edit : Edit k v) :
    after capacity (edits ++ [edit]) = ((after capacity edits).apply edit).value.1 := by
  unfold after
  generalize new capacity = h
  induction edits generalizing h with
  | nil => rfl
  | cons first rest ih => exact ih (h.apply first).value.1

theorem after_exclude {capacity : ℕ} {edits : List (Edit k v)}
    (hok : ((after capacity edits).exclude first stop).value = .ok h') :
    after capacity (edits ++ [.exclude first stop]) = h' := by
  rw [after_concat, apply, Traced.value_map, hok]
  rfl

/-- From the end of an accepted exclusion on, every key has the raised value. -/
theorem get_exclude_of_isOnOrAfter (hok : (h.exclude first stop).value = .ok h') {key : BitVec k}
    (hkey : Serial.isOnOrAfter key stop) :
    h'.get key = .ok (h.value + (Serial.distance stop first).setWidth v) := by
  obtain ⟨-, -, rfl⟩ := exclude_eq_ok hok
  rw [get_of_isOnOrAfter (by rwa [advance_start]), advance_value]

/-- A key that an accepted exclusion leaves out is recognized where it comes after the newest closed
range. Otherwise the older ranges decide, which may have a gap there from an earlier lap. -/
theorem get_exclude_eq_excluded_iff (hk : 0 < k) (hok : (h.exclude first stop).value = .ok h')
    {s : Span k v} {older : List (Span k v)} (hclosed : h'.closed = s :: older) {key : BitVec k}
    (hkey : Serial.distance key first < Serial.distance stop first) :
    h'.get key = .error .excluded ↔
      s.EndsBefore key ∨ ¬Serial.within key s.first s.last ∧
        getBefore key s.first older = .error .excluded := by
  obtain ⟨-, hhalf, rfl⟩ := exclude_eq_ok hok
  have hgap := s.strictlyBetween_iff hkey hhalf
  rw [get, advance_start, if_neg (Serial.not_isOnOrAfter_stop hk hkey hhalf), hclosed, getBefore]
  by_cases hafter : s.EndsBefore key
  · simp [hgap.mpr hafter, hafter]
  rw [if_neg (mt hgap.mp hafter)]
  by_cases hin : Serial.within key s.first s.last
  · simp [hin, hafter]
  · simp [hin, hafter]

/-- The line makes the exclusions that its image on the circle accepts. -/
theorem apply_exclude_of_ok (hk : 0 < k) (l : Line)
    (hok : ((l.wrap : History k v).exclude first stop).value = .ok h') :
    (l.apply (.exclude first stop : Edit k v)).1 =
      l.advance (l.reading first) (l.reading first + (Serial.distance stop first).toNat)
        (l.value + (Serial.distance stop first).toNat) := by
  have hrefused := Line.exclude_refused_iff (v := v) hk l first stop
  rw [value_exclude] at hok
  split at hok
  · cases hok
  · next hc =>
    rw [hrefused, not_not] at hc
    rw [Line.apply, Line.toNat_width]
    exact congrArg Prod.fst (if_pos hc)

/-- Where the newest gap has fewer keys than half the space, all that the exclusion leaves out comes
after the newest closed range. -/
theorem endsBefore_of_gap (hk : 0 < k) {capacity : ℕ} {edits : List (Edit k v)}
    (hok : ((after capacity edits).exclude first stop).value = .ok h') {s : Span k v}
    {older : List (Span k v)} (hclosed : h'.closed = s :: older)
    (hgap : ∀ g ∈ (Line.after capacity (edits ++ [.exclude first stop])).gaps.head?,
      g.2 - g.1 - 1 ≤ 2 ^ (k - 1) - 1) {key : BitVec k}
    (hkey : Serial.distance key first < Serial.distance stop first) : s.EndsBefore key := by
  have htiled := Line.tiled_after capacity edits
  rw [← after_exclude hok, after_eq_wrap hk] at hclosed
  rw [after_eq_wrap hk] at hok
  rw [Line.after_concat, apply_exclude_of_ok hk _ hok] at hclosed hgap
  generalize Line.after capacity edits = l at *
  have hstart := l.start_le_reading first
  have hfirst : BitVec.ofInt k (l.reading first) = first := l.ofInt_reading first
  generalize l.reading first = a at *
  -- the gap as it lies on the line, and the key in it
  obtain ⟨t, older', hline, rfl, -⟩ := List.map_eq_cons_iff.mp hclosed
  have hlast := Line.advance_last_lt htiled hline
  have hwidth := hgap (t.last, a + (Serial.distance stop first).toNat) (by
    rw [Line.gaps, hline, Line.advance_start]
    rfl)
  have hread : BitVec.ofInt k (a + (Serial.distance key first).toNat) = key := by
    rw [BitVec.ofInt_add, hfirst, Serial.ofInt_toNat, Serial.distance, BitVec.add_comm,
      BitVec.sub_add_cancel]
  rw [BitVec.lt_def] at hkey
  simp only at hwidth
  rw [← hread, Span.EndsBefore, Segment.wrap, ne_eq, Serial.ofInt_inj hk (by omega) (by omega),
    Serial.isOnOrAfter_ofInt hk (by omega) (by omega)]
  omega

/-- An exclusion that starts after the open range does leaves a gap of its own width. -/
theorem gap_of_ne_start (hk : 0 < k) {capacity : ℕ} {edits : List (Edit k v)}
    (hok : ((after capacity edits).exclude first stop).value = .ok h')
    (hne : first ≠ (after capacity edits).start) :
    ∀ g ∈ (Line.after capacity (edits ++ [.exclude first stop])).gaps.head?,
      g.2 - g.1 - 1 = (Serial.distance stop first).toNat := by
  rw [after_eq_wrap hk] at hok hne
  rw [Line.after_concat, apply_exclude_of_ok hk _ hok]
  generalize Line.after capacity edits = l at *
  have hfirst : BitVec.ofInt k (l.reading first) = first := l.ofInt_reading first
  have hread : l.reading first ≠ l.start := by
    rintro heq
    exact hne (by rw [← hfirst, heq]; rfl)
  rw [Line.gaps, Line.advance, if_neg hread]
  cases hcap : l.capacity with
  | zero => simp [Line.gapsBefore]
  | succ n =>
    simp only [List.take_succ_cons, Line.gapsBefore, List.head?_cons, Option.mem_some_iff]
    rintro g rfl
    simp only
    omega

/-- An accepted exclusion takes effect at once. From its end on every key has the raised value. What
it leaves out is recognized where it comes after the newest closed range, or where an older gap
holds it from an earlier lap. That is all of it unless exclusions that meet have left out half of
all keys. -/
theorem lookup_exclude (hk : 0 < k) (capacity : ℕ) (edits : List (Edit k v))
    (hok : ((after capacity edits).exclude first stop).value = .ok h') :
    (∀ key, Serial.isOnOrAfter key stop → (h'.lookup key).value =
        .ok ((after capacity edits).value + (Serial.distance stop first).setWidth v)) ∧
      ∀ s older, h'.closed = s :: older →
        (∀ key, Serial.distance key first < Serial.distance stop first →
          ((h'.lookup key).value = .error .excluded ↔
            s.EndsBefore key ∨ ¬Serial.within key s.first s.last ∧
              getBefore key s.first older = .error .excluded)) ∧
        ((first ≠ (after capacity edits).start ∨
            ∀ g ∈ (Line.after capacity (edits ++ [.exclude first stop])).gaps.head?,
              g.2 - g.1 - 1 ≤ 2 ^ (k - 1) - 1) →
          ∀ key, Serial.distance key first < Serial.distance stop first →
            (h'.lookup key).value = .error .excluded) := by
  refine ⟨fun key hkey => get_exclude_of_isOnOrAfter hok hkey, fun s older hclosed =>
    ⟨fun key hkey => get_exclude_eq_excluded_iff hk hok hclosed hkey, fun hgap key hkey => ?_⟩⟩
  refine (get_exclude_eq_excluded_iff hk hok hclosed hkey).mpr (Or.inl ?_)
  refine endsBefore_of_gap hk hok hclosed (fun g hg => ?_) hkey
  rcases hgap with hne | hgap
  · obtain ⟨-, hhalf, -⟩ := exclude_eq_ok hok
    rw [BitVec.lt_def, Serial.toNat_halfRange hk] at hhalf
    zify at hhalf
    rw [gap_of_ne_start hk hok hne g hg]
    omega
  · exact hgap g hg

/-- A quarter of all keys is left out, from key 1 on. -/
private def quarterGap : List (Edit 16 32) := [.exclude 1 16385]

/-- The next exclusion meets it. Together they leave out one key less than half of all. -/
theorem lookup_exclude_quarterGap :
    ((after 4 quarterGap).exclude 16385 32768).value =
        .ok ⟨4, [⟨0, 0, 0⟩], 32768, 32767⟩ ∧
      ((⟨4, [⟨0, 0, 0⟩], 32768, 32767⟩ : History 16 32).lookup 65535).value = .ok 32767 ∧
      ((⟨4, [⟨0, 0, 0⟩], 32768, 32767⟩ : History 16 32).lookup 32767).value =
        .error .excluded := by
  have hok : ((after 4 quarterGap).exclude 16385 32768).value =
      .ok ⟨4, [⟨0, 0, 0⟩], 32768, 32767⟩ := by decide
  obtain ⟨hlater, hleft⟩ := lookup_exclude (by decide) 4 quarterGap hok
  exact ⟨hok, hlater 65535 (by decide),
    (hleft _ _ rfl).2 (Or.inr (by decide)) 32767 (by decide)⟩

/-- One key more, and the key before the end of the exclusion that was just accepted reads as older
than everything retained. -/
theorem lookup_tooOld_quarterGap :
    ((after 4 quarterGap).exclude 16385 32769).value =
        .ok ⟨4, [⟨0, 0, 0⟩], 32769, 32768⟩ ∧
      Serial.distance 32768#16 16385 < Serial.distance 32769#16 16385 ∧
      ((⟨4, [⟨0, 0, 0⟩], 32769, 32768⟩ : History 16 32).lookup 32768).value =
        .error .tooOld := by
  decide

end History

end Renumber
