import Renumber.Proofs.Composition

/-! Histories that start over. A reset leaves one open range, which starts at key 0. Keys of the
upper half of the circular key space precede it: they are too old at once, and stay so for a source
that goes on from there, since no edit from such a key is accepted. -/
namespace Renumber.History

variable {k v : ℕ}

/-- The key from which the edit changes the history, if it names one. -/
def Edit.origin? : Edit k v → Option (BitVec k)
  | .exclude first _ => some first
  | .lowerFrom key _ => some key
  | .lower _ | .reset _ => none

/-- Nothing is closed, and the open range starts at key 0. -/
structure Initial (h : History k v) : Prop where
  closed : h.closed = []
  start : h.start = 0

variable {h : History k v}

theorem isOnOrAfter_zero (key : BitVec k) :
    Serial.isOnOrAfter key 0 = decide (key < Serial.halfRange k) := by
  rw [Serial.isOnOrAfter, Serial.distance]
  simp only [BitVec.ofNat_eq_ofNat, BitVec.sub_zero]

theorem precedes_zero_iff (key : BitVec k) :
    Serial.precedes key 0 ↔ ¬key < Serial.halfRange k := by
  rw [Serial.precedes_eq_not, isOnOrAfter_zero, ← decide_not, decide_eq_true_eq]

/-- The lower half of the key space is read, the upper half precedes it, and nothing is reported. -/
theorem Initial.lookup (hinit : h.Initial) (key : BitVec k) :
    h.lookup key = pure (if key < Serial.halfRange k then .ok h.value else .error .tooOld) := by
  have hget : h.get key = if key < Serial.halfRange k then .ok h.value else .error .tooOld := by
    rw [get, hinit.closed, hinit.start, isOnOrAfter_zero, getBefore]
    by_cases hkey : key < Serial.halfRange k
    · rw [decide_eq_true hkey, if_pos rfl, if_pos hkey]
    · rw [decide_eq_false hkey, if_neg Bool.false_ne_true, if_pos ((precedes_zero_iff key).mpr hkey),
        if_neg hkey]
  have hfound : h.get key ≠ .error .notFound := by
    rw [hget]
    split <;> simp
  rw [lookup_eq_pure hfound, hget]

theorem Initial.precedes_start_iff (hinit : h.Initial) (key : BitVec k) :
    Serial.precedes key h.start ↔ ¬key < Serial.halfRange k := by
  rw [hinit.start, precedes_zero_iff]

theorem Initial.lowerFrom_accepted_iff (hinit : h.Initial) (key : BitVec k) (delta : BitVec v) :
    (h.apply (.lowerFrom key delta)).value.2 = .ok () ↔ key < Serial.halfRange k := by
  rw [apply_lowerFrom]
  split
  · next hrefused =>
    exact iff_of_false (fun hok => by cases hok) ((hinit.precedes_start_iff key).mp hrefused)
  · next haccepted =>
    rw [hinit.precedes_start_iff, not_not] at haccepted
    exact iff_of_true rfl haccepted

theorem Initial.exclude_accepted_iff (hinit : h.Initial) (first stop : BitVec k) :
    (h.apply (.exclude first stop)).value.2 = .ok () ↔
      first < Serial.halfRange k ∧ Serial.distance stop first ≠ 0 ∧
        Serial.distance stop first < Serial.halfRange k := by
  rw [apply_exclude]
  split
  · next hrefused =>
    refine iff_of_false (fun hok => by cases hok) ?_
    rintro ⟨hfirst, hpos, hhalf⟩
    rcases hrefused with hzero | hwide | hupper
    · exact hpos hzero
    · exact BitVec.not_le.mpr hhalf hwide
    · exact (hinit.precedes_start_iff first).mp hupper hfirst
  · next haccepted =>
    rw [not_or, not_or, BitVec.not_le, hinit.precedes_start_iff, not_not] at haccepted
    exact iff_of_true rfl ⟨haccepted.2.2, haccepted.1, haccepted.2.1⟩

/-- An edit from the upper half is refused. -/
theorem Initial.apply_upper (hinit : h.Initial) {edit : Edit k v} {key : BitVec k}
    (horigin : edit.origin? = some key) (hkey : Serial.halfRange k ≤ key) :
    h.apply edit = pure (h, .error .reversed) := by
  have hprecedes : Serial.precedes key h.start :=
    (hinit.precedes_start_iff key).mpr (BitVec.not_lt.mpr hkey)
  cases edit with
  | exclude first stop =>
    obtain rfl := Option.some.inj horigin
    rw [apply_exclude, if_pos (Or.inr (Or.inr hprecedes))]
  | lowerFrom key' delta =>
    obtain rfl := Option.some.inj horigin
    rw [apply_lowerFrom, if_pos hprecedes]
  | lower delta => cases horigin
  | reset value => cases horigin

/-- A source that only names keys of the upper half never changes the history. -/
theorem Initial.applyAll_upper (hinit : h.Initial) (later : List (Edit k v))
    (hupper : ∀ edit ∈ later, ∃ key, edit.origin? = some key ∧ Serial.halfRange k ≤ key) :
    h.applyAll later = pure (h, List.replicate later.length (.error .reversed)) := by
  induction later with
  | nil => rfl
  | cons edit rest ih =>
    rw [List.forall_mem_cons] at hupper
    obtain ⟨⟨key, horigin, hkey⟩, hrest⟩ := hupper
    rw [applyAll_cons, hinit.apply_upper horigin hkey, pure_bind, ih hrest, map_pure]
    rfl

theorem after_reset (capacity : ℕ) (edits : List (Edit k v)) (value : BitVec v) :
    after capacity (edits ++ [.reset value]) = ⟨max capacity 1, [], 0, value⟩ := by
  rw [after_concat, apply, Traced.value_pure, reset, (keeps_after capacity edits).room]

/-- After any edits, a reset leaves one open range with the given value. It reads for all keys of
the lower half of the key space, from which edits are accepted again. The keys of the upper half are
too old, and edits from there are refused as long as no others are made. -/
theorem lookup_reset (capacity : ℕ) (edits : List (Edit k v)) (value : BitVec v) :
    let h := after capacity (edits ++ [.reset value])
    h = ⟨max capacity 1, [], 0, value⟩ ∧ h.size = 1 ∧
      (∀ key, h.lookup key =
        pure (if key < Serial.halfRange k then .ok value else .error .tooOld)) ∧
      (∀ key delta, (h.apply (.lowerFrom key delta)).value.2 = .ok () ↔
        key < Serial.halfRange k) ∧
      (∀ first stop, (h.apply (.exclude first stop)).value.2 = .ok () ↔
        first < Serial.halfRange k ∧ Serial.distance stop first ≠ 0 ∧
          Serial.distance stop first < Serial.halfRange k) ∧
      ∀ later : List (Edit k v),
        (∀ edit ∈ later, ∃ key, edit.origin? = some key ∧ Serial.halfRange k ≤ key) →
        h.applyAll later = pure (h, List.replicate later.length (.error .reversed)) := by
  intro h
  have hreset : h = ⟨max capacity 1, [], 0, value⟩ := after_reset capacity edits value
  have hinit : h.Initial := by
    rw [hreset]
    exact ⟨rfl, rfl⟩
  have hvalue : h.value = value := congrArg History.value hreset
  refine ⟨hreset, congrArg size hreset, fun key => ?_, hinit.lowerFrom_accepted_iff,
    hinit.exclude_accepted_iff, hinit.applyAll_upper⟩
  rw [hinit.lookup, hvalue]

/-- A source that restarts in the upper half of the key space after two exclusions. -/
theorem lookup_reset_upper :
    let h : History 16 32 := after 4 [.exclude 10 20, .exclude 30 40, .reset 42]
    (h.lookup 32767).value = .ok 42 ∧
      h.applyAll [.exclude 40000 40001, .lowerFrom 40010 5] =
        pure (h, [.error .reversed, .error .reversed]) := by
  have hlower : 32767 < Serial.halfRange 16 := by decide
  obtain ⟨-, -, hread, -, -, hupper⟩ :=
    lookup_reset (k := 16) (v := 32) 4 [.exclude 10 20, .exclude 30 40] 42
  have hlast := hread 32767
  rw [if_pos hlower] at hlast
  refine ⟨congrArg Traced.value hlast, hupper _ ?_⟩
  intro edit hedit
  simp only [List.mem_cons, List.not_mem_nil, or_false] at hedit
  rcases hedit with rfl | rfl
  · exact ⟨40000, rfl, by decide⟩
  · exact ⟨40010, rfl, by decide⟩

/-- Key 40000 is too old right after the reset, though nothing was read or excluded since. -/
theorem lookup_reset_tooOld :
    (after 4 [.exclude 10 20, .reset (42 : BitVec 32)] : History 16 32).size = 1 ∧
      ((after 4 [.exclude 10 20, .reset (42 : BitVec 32)] : History 16 32).lookup 40000).value =
        .error .tooOld := by
  decide

end Renumber.History
