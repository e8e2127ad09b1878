import Renumber.Entries
import Mathlib.Data.List.Nodup

/-! Look-up among entries. If all keys differ, the order of the entries does not matter. -/
namespace Renumber.Entries

variable {κ β : Type} {key : κ} {value : β} {entries entries' : List (κ × β)}

section LookUp

variable [BEq κ] [LawfulBEq κ]

theorem lookup_eq_none (h : key ∉ entries.map Prod.fst) : entries.lookup key = none := by
  rw [List.lookup_eq_none_iff]
  intro entry hentry
  rw [bne_iff_ne]
  rintro rfl
  exact h (List.mem_map_of_mem hentry)

theorem lookup_eq_some_iff_mem (h : (entries.map Prod.fst).Nodup) :
    entries.lookup key = some value ↔ (key, value) ∈ entries := by
  constructor
  · intro hvalue
    obtain ⟨before, after, rfl, -⟩ := List.lookup_eq_some_iff.mp hvalue
    exact List.mem_append_right _ List.mem_cons_self
  · intro hmem
    obtain ⟨before, after, rfl⟩ := List.append_of_mem hmem
    rw [List.map_append, List.nodup_append] at h
    refine List.lookup_eq_some_iff.mpr ⟨before, after, rfl, fun entry hentry => ?_⟩
    rw [bne_iff_ne]
    exact (h.2.2 _ (List.mem_map_of_mem hentry) _ List.mem_cons_self).symm

theorem lookup_filter (chosen : List κ) [DecidableEq κ] (entries : List (κ × β)) (key : κ) :
    (entries.filter (·.1 ∈ chosen)).lookup key =
      if key ∈ chosen then entries.lookup key else none := by
  induction entries with
  | nil => simp
  | cons entry rest ih =>
    obtain ⟨k, value⟩ := entry
    rw [List.filter_cons]
    by_cases hkey : key = k
    · subst hkey
      by_cases hchosen : key ∈ chosen <;> simp [hchosen, ih]
    · have hne : (key == k) = false := beq_false_of_ne hkey
      by_cases hchosen : k ∈ chosen <;> simp [hchosen, List.lookup_cons, hne, ih]

omit [LawfulBEq κ] in
theorem lookup_map (f : β → β) (entries : List (κ × β)) (key : κ) :
    (entries.map (Prod.map id f)).lookup key = (entries.lookup key).map f := by
  induction entries with
  | nil => rfl
  | cons entry rest ih =>
    obtain ⟨k, value⟩ := entry
    rw [List.map_cons, Prod.map_apply, id, List.lookup_cons, List.lookup_cons, ih]
    cases key == k <;> rfl

theorem lookup_of_perm (hperm : entries.Perm entries') (h : (entries.map Prod.fst).Nodup) :
    entries.lookup key = entries'.lookup key := by
  refine Option.ext fun value => ?_
  rw [lookup_eq_some_iff_mem h, lookup_eq_some_iff_mem ((hperm.map _).nodup_iff.mp h),
    hperm.mem_iff]

end LookUp

/-! ### Values under a list of keys -/

theorem zip_concat {keys : List κ} {values : List β} (h : keys[values.length]? = some key)
    (value : β) : keys.zip (values ++ [value]) = keys.zip values ++ [(key, value)] := by
  induction keys generalizing values with
  | nil => cases h
  | cons k keys ih =>
    cases values with
    | nil =>
      obtain rfl := Option.some.inj h
      simp
    | cons first values => exact congrArg ((k, first) :: ·) (ih h)

theorem nodup_keys_zip {keys : List κ} (h : keys.Nodup) (values : List β) :
    ((keys.zip values).map Prod.fst).Nodup := by
  have hprefix : (keys.zip values).map Prod.fst <+: keys := by
    clear h
    induction keys generalizing values with
    | nil => exact List.nil_prefix
    | cons k keys ih =>
      cases values with
      | nil => exact List.nil_prefix
      | cons value values => exact List.cons_prefix_cons.mpr ⟨rfl, ih values⟩
  exact h.sublist hprefix.sublist

/-! ### Setting an entry -/

variable [DecidableEq κ]

theorem lookup_set [BEq κ] [LawfulBEq κ] (key : κ) (value : β) (entries : List (κ × β)) (other : κ) :
    (set key value entries).lookup other =
      if other = key then some value else entries.lookup other := by
  induction entries with
  | nil =>
    rw [set, List.lookup_cons]
    split <;> simp_all
  | cons entry rest ih =>
    obtain ⟨k, old⟩ := entry
    rw [set]
    by_cases hkey : k = key
    · rw [if_pos hkey, List.lookup_cons, List.lookup_cons, hkey]
      by_cases hother : other = key
      · simp [hother]
      · simp [hother, beq_false_of_ne hother]
    · rw [if_neg hkey, List.lookup_cons, List.lookup_cons, ih]
      by_cases hother : other = k
      · subst hother
        simp [hkey]
      · rw [beq_false_of_ne hother]

theorem mem_set {entry : κ × β} (h : entry ∈ set key value entries) :
    entry = (key, value) ∨ entry ∈ entries := by
  induction entries with
  | nil => exact Or.inl (List.mem_singleton.mp h)
  | cons first rest ih =>
    obtain ⟨k, old⟩ := first
    rw [set] at h
    split at h
    · exact (List.mem_cons.mp h).imp_right (List.mem_cons_of_mem _)
    · rcases List.mem_cons.mp h with h | h
      · exact Or.inr (List.mem_cons.mpr (Or.inl h))
      · exact (ih h).imp_right (List.mem_cons_of_mem _)

theorem mem_keys_set_iff {other : κ} :
    other ∈ (set key value entries).map Prod.fst ↔ other = key ∨ other ∈ entries.map Prod.fst := by
  induction entries with
  | nil => simp [set]
  | cons first rest ih =>
    obtain ⟨k, old⟩ := first
    rw [set, List.map_cons, List.mem_cons]
    split
    · next hkey => rw [List.map_cons, List.mem_cons, hkey, or_self_left]
    · rw [List.map_cons, List.mem_cons, ih, or_left_comm]

theorem nodup_set (h : (entries.map Prod.fst).Nodup) (key : κ) (value : β) :
    ((set key value entries).map Prod.fst).Nodup := by
  induction entries with
  | nil => exact List.nodup_singleton key
  | cons first rest ih =>
    obtain ⟨k, old⟩ := first
    rw [List.map_cons, List.nodup_cons] at h
    rw [set]
    split
    · next hkey => exact List.nodup_cons.mpr ⟨hkey ▸ h.1, h.2⟩
    · next hkey =>
      refine List.nodup_cons.mpr ⟨fun hmem => ?_, ih h.2⟩
      obtain ⟨entry, hentry, heq⟩ := List.mem_map.mp hmem
      rcases mem_set hentry with rfl | hentry
      · exact hkey heq.symm
      · exact h.1 (heq ▸ List.mem_map_of_mem hentry)

end Renumber.Entries
