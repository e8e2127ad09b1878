import Renumber.History.Edit

/-! No edit changes the capacity of a history, and nothing overflows where the ranges of a full history
can be counted in a machine word. -/
namespace Renumber.History

variable {k v : Nat} {h h' : History k v}

theorem overflow_split_of_lt (hcapacity : h.capacity + 1 < UInt64.size) (stop next : BitVec k)
    (value : BitVec v) : (h.split stop next value).overflow = false := by
  rw [overflow_split, decide_eq_false (Nat.not_le.mpr hcapacity)]

theorem overflow_exclude (hcapacity : h.capacity + 1 < UInt64.size) (first stop : BitVec k) :
    (h.exclude first stop).overflow = false := by
  simp only [exclude]
  split
  · rfl
  split
  · rfl
  split
  · rfl
  · exact (Traced.overflow_map ..).trans (overflow_split_of_lt hcapacity ..)

theorem overflow_lowerFrom (hcapacity : h.capacity + 1 < UInt64.size) (key : BitVec k)
    (delta : BitVec v) : (h.lowerFrom key delta).overflow = false := by
  unfold lowerFrom
  split
  · rfl
  split
  · rfl
  · exact (Traced.overflow_map ..).trans (overflow_split_of_lt hcapacity ..)

theorem capacity_exclude {first stop : BitVec k} (hok : (h.exclude first stop).value = .ok h') :
    h'.capacity = h.capacity := by
  simp only [exclude] at hok
  split at hok
  · cases hok
  split at hok
  · cases hok
  split at hok <;> exact (Except.ok.inj hok) ▸ rfl

theorem capacity_lowerFrom {key : BitVec k} {delta : BitVec v}
    (hok : (h.lowerFrom key delta).value = .ok h') : h'.capacity = h.capacity := by
  unfold lowerFrom at hok
  split at hok
  · cases hok
  split at hok <;> exact (Except.ok.inj hok) ▸ rfl

theorem overflow_apply (hcapacity : h.capacity + 1 < UInt64.size) (edit : Edit k v) :
    (h.apply edit).overflow = false := by
  cases edit with
  | exclude first stop => exact (Traced.overflow_map ..).trans (overflow_exclude hcapacity ..)
  | lower delta => rfl
  | lowerFrom key delta => exact (Traced.overflow_map ..).trans (overflow_lowerFrom hcapacity ..)
  | reset value => rfl

theorem capacity_keep {result : Except HistoryError (History k v)}
    (hok : ∀ changed, result = .ok changed → changed.capacity = h.capacity) :
    (h.keep result).1.capacity = h.capacity := by
  cases result with
  | error e => rfl
  | ok changed => exact hok changed rfl

theorem capacity_apply (h : History k v) (edit : Edit k v) :
    (h.apply edit).value.1.capacity = h.capacity := by
  cases edit with
  | exclude first stop => exact capacity_keep fun _ => capacity_exclude
  | lower delta => rfl
  | lowerFrom key delta => exact capacity_keep fun _ => capacity_lowerFrom
  | reset value => rfl

theorem overflow_applyAll (hcapacity : h.capacity + 1 < UInt64.size) (edits : List (Edit k v)) :
    (h.applyAll edits).overflow = false := by
  induction edits generalizing h with
  | nil => rfl
  | cons edit rest ih =>
    have hrest := ih (h := (h.apply edit).value.1) (by rwa [capacity_apply])
    simp only [applyAll, Traced.overflow_bind, Traced.overflow_pure, overflow_apply hcapacity,
      hrest, Bool.or_false]

/-- The ranges of a shorter history can be counted if those of a longer one can. -/
theorem lt_size_of_max_le {few many : Nat} (hle : max few 1 ≤ max many 1)
    (hmany : many + 1 < UInt64.size) : few + 1 < UInt64.size := by
  have hsize : 2 < UInt64.size := by decide
  omega

theorem new_capacity_lt {capacity : Nat} (hcapacity : capacity + 1 < UInt64.size) :
    (new capacity : History k v).capacity + 1 < UInt64.size := by
  have hsize : 2 < UInt64.size := by decide
  change max capacity 1 + 1 < UInt64.size
  omega

end Renumber.History
