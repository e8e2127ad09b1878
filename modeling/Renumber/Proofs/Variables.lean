import Renumber.Settings.Environment
import Mathlib.Data.List.Basic
import Mathlib.Data.Int.Notation
import Mathlib.Data.Nat.Notation

/-! Names of variables. The part of a name after its start is divided at double underscores, and the
segments are the path of the variable's setting. Different names, but for letter case, have different
paths. -/
namespace Renumber

namespace Text

/-- Lower-case letters come after the capital ones and the marks of ASCII. -/
theorem lowerRuns_bound : ∀ run ∈ lowerRuns, 97 ≤ (run.1 : ℤ) + run.2.2.2 := by
  decide +kernel

theorem toNat_ofNat_eq (n : ℕ) : (Char.ofNat n).toNat = n ∨ (Char.ofNat n).toNat = 0 := by
  by_cases hvalid : n.isValidChar
  · rw [Char.ofNat, dif_pos hvalid]
    exact Or.inl rfl
  · rw [Char.ofNat, dif_neg hvalid]
    exact Or.inr rfl

theorem eq_of_mem_lowerChar {mark c : Char} (hmark : 0 < mark.toNat ∧ mark.toNat < 97)
    (h : mark ∈ lowerChar c) : mark = c := by
  rw [lowerChar] at h
  split at h
  · simp only [List.mem_cons, List.not_mem_nil, or_false] at h
    rcases h with rfl | rfl
    · exact absurd hmark.2 (by decide)
    · exact absurd hmark.2 (by decide)
  · split at h
    · next first last step distance hfind =>
      have hrun := lowerRuns_bound _ (List.mem_of_find?_eq_some hfind)
      have hfound := List.find?_some hfind
      have hfirst : first ≤ c.toNat := (of_decide_eq_true hfound).1
      have hletter : 97 ≤ (c.toNat + distance).toNat := by
        simp only at hrun
        omega
      rw [List.mem_singleton] at h
      rcases toNat_ofNat_eq (c.toNat + distance).toNat with heq | heq <;> rw [← h] at heq <;> omega
    · exact List.mem_singleton.mp h

/-- Marks and digits of the lower case are those of the text. -/
theorem mem_of_mem_lower {mark : Char} (hmark : 0 < mark.toNat ∧ mark.toNat < 97) {s : String}
    (h : mark ∈ (lower s).toList) : mark ∈ s.toList := by
  have hfrom : ∀ before cs, mark ∈ lowerFrom before cs → mark ∈ cs := by
    intro before cs
    induction cs generalizing before with
    | nil => exact id
    | cons c cs ih =>
      intro hmem
      rw [lowerFrom, List.mem_append] at hmem
      rcases hmem with hc | hcs
      · split at hc
        · rw [List.mem_singleton] at hc
          subst hc
          split at hmark <;> exact absurd hmark.2 (by decide)
        · exact List.mem_cons.mpr (Or.inl (eq_of_mem_lowerChar hmark hc))
      · exact List.mem_cons_of_mem c (ih _ hcs)
  rw [lower, String.toList_ofList] at h
  exact hfrom [] s.toList h

end Text

namespace Environment

/-- The parts between double underscores, which are found from the left. -/
def divided : List Char → List (List Char)
  | '_' :: '_' :: cs => [] :: divided cs
  | c :: cs => (divided cs).modifyHead (c :: ·)
  | [] => [[]]

/-- The path of the setting that a variable names, if the variable is one of the program. -/
def segments? (name : String) : Option (List String) :=
  let cs := (Text.lower name).toList
  if nameStart.toList.isPrefixOf cs then
    some ((divided (cs.drop nameStart.length)).map String.ofList)
  else none

theorem divided_ne_nil (cs : List Char) : divided cs ≠ [] := by
  fun_induction divided cs with
  | case1 cs ih => exact List.cons_ne_nil _ _
  | case2 c cs _ ih => exact fun h => ih (List.modifyHead_eq_nil_iff.mp h)
  | case3 => exact List.cons_ne_nil _ _

theorem intercalate_modifyHead (mark : List Char) (c : Char) {parts : List (List Char)}
    (h : parts ≠ []) :
    mark.intercalate (parts.modifyHead (c :: ·)) = c :: mark.intercalate parts := by
  obtain ⟨part, rest, rfl⟩ := List.exists_cons_of_ne_nil h
  exact List.intercalate_cons_cons_left

/-- Nothing of the name is lost. -/
theorem intercalate_divided (cs : List Char) : ['_', '_'].intercalate (divided cs) = cs := by
  fun_induction divided cs with
  | case1 cs ih => rw [List.intercalate_cons_of_ne_nil (divided_ne_nil cs), ih]; rfl
  | case2 c cs _ ih => rw [intercalate_modifyHead _ _ (divided_ne_nil cs), ih]
  | case3 => rfl

/-- The key has points where the name is divided. -/
theorem dotted_eq_intercalate (cs : List Char) : dotted cs = ['.'].intercalate (divided cs) := by
  fun_induction divided cs with
  | case1 cs ih => rw [List.intercalate_cons_of_ne_nil (divided_ne_nil cs), dotted, ih]; rfl
  | case2 c cs hc ih =>
    rw [intercalate_modifyHead _ _ (divided_ne_nil cs), ← ih]
    exact dotted.eq_2 c cs hc
  | case3 => rfl

/-- The key of a variable is the path of its setting. -/
theorem key?_eq (name : String) : key? name = (segments? name).map ".".intercalate := by
  rw [key?, segments?]
  split
  · refine congrArg some (String.toList_inj.mp ?_)
    rw [String.toList_ofList, String.toList_intercalate, dotted_eq_intercalate]
    simp
  · rfl

variable {name other : String} {segments : List String}

theorem toList_lower_of_segments? (h : segments? name = some segments) :
    (Text.lower name).toList =
      nameStart.toList ++ ['_', '_'].intercalate (segments.map String.toList) := by
  rw [segments?] at h
  split at h
  · next hstart =>
    obtain ⟨rest, hrest⟩ := List.isPrefixOf_iff_prefix.mp hstart
    have hdrop : (nameStart.toList ++ rest).drop nameStart.length = rest :=
      List.drop_left
    rw [← hrest, hdrop, Option.some.injEq] at h
    subst h
    rw [← hrest, List.map_map]
    have hid : String.toList ∘ String.ofList = id := funext fun cs => String.toList_ofList
    rw [hid, List.map_id, intercalate_divided]
  · cases h

theorem ne_nil_of_segments? (h : segments? name = some segments) : segments ≠ [] := by
  rw [segments?, Option.ite_none_right_eq_some, Option.some.injEq] at h
  rw [← h.2]
  exact fun hnil => divided_ne_nil _ (List.map_eq_nil_iff.mp hnil)

/-- Names with one path are the same but for letter case. -/
theorem lower_eq_of_segments? (h : segments? name = some segments)
    (hother : segments? other = some segments) : Text.lower name = Text.lower other := by
  rw [← String.toList_inj, toList_lower_of_segments? h, toList_lower_of_segments? hother]

theorem mem_intercalate {mark : Char} {between : List Char} {parts : List (List Char)}
    {part : List Char} (hpart : part ∈ parts) (h : mark ∈ part) :
    mark ∈ between.intercalate parts := by
  induction parts with
  | nil => exact absurd hpart List.not_mem_nil
  | cons first rest ih =>
    rcases eq_or_ne rest [] with rfl | hrest
    · rw [List.mem_singleton] at hpart
      rwa [List.intercalate_singleton, ← hpart]
    · rw [List.intercalate_cons_of_ne_nil hrest, List.mem_append]
      rcases List.mem_cons.mp hpart with rfl | hpart
      · exact Or.inl (List.mem_append_left _ h)
      · exact Or.inr (ih hpart)

theorem mem_or_mem_of_mem_intercalate {mark : Char} {between : List Char}
    {parts : List (List Char)} (h : mark ∈ between.intercalate parts) :
    mark ∈ between ∨ ∃ part ∈ parts, mark ∈ part := by
  induction parts with
  | nil => exact absurd h List.not_mem_nil
  | cons first rest ih =>
    rcases eq_or_ne rest [] with rfl | hrest
    · rw [List.intercalate_singleton] at h
      exact Or.inr ⟨first, List.mem_cons_self, h⟩
    · rw [List.intercalate_cons_of_ne_nil hrest, List.mem_append, List.mem_append] at h
      rcases h with (h | h) | h
      · exact Or.inr ⟨first, List.mem_cons_self, h⟩
      · exact Or.inl h
      · rcases ih h with h | ⟨part, hpart, h⟩
        · exact Or.inl h
        · exact Or.inr ⟨part, List.mem_cons_of_mem _ hpart, h⟩

/-- Marks of a segment are marks of the name. -/
theorem mem_of_mem_segment {mark : Char} (hmark : 0 < mark.toNat ∧ mark.toNat < 97)
    (h : segments? name = some segments) {segment : String} (hsegment : segment ∈ segments)
    (hmem : mark ∈ segment.toList) : mark ∈ name.toList := by
  apply Text.mem_of_mem_lower hmark
  rw [toList_lower_of_segments? h]
  exact List.mem_append_right _ (mem_intercalate (List.mem_map_of_mem hsegment) hmem)

end Environment

end Renumber
