import Renumber.Proofs.CircularOrder
import Renumber.Unwrapper

/-! How far the unwrapper moves at one packet. -/
namespace Renumber

theorem toNat_widen (s : BitVec 16) : (s.setWidth 64).toNat = s.toNat := by
  rw [BitVec.toNat_setWidth, Nat.mod_eq_of_lt (by omega)]

namespace Unwrapper

theorem extend_of_none {u : Unwrapper} (hu : u.highest = none) (s : BitVec 16) :
    u.extend s = (some (s.setWidth 64), ⟨some (s.setWidth 64)⟩) := by
  unfold extend
  rw [hu]

/-- The unwrapper moves on by less than half of the 16-bit numbers, or stays. -/
theorem extend_cases {u : Unwrapper} {h : BitVec 64} (hu : u.highest = some h)
    (hh : h.toNat < 2 ^ 63) (s : BitVec 16) :
    (∃ e : BitVec 64, u.extend s = (some e, ⟨some e⟩) ∧ h.toNat ≤ e.toNat ∧
        e.toNat < h.toNat + 2 ^ 15) ∨
      (∃ e : BitVec 64, u.extend s = (some e, u) ∧ e.toNat < h.toNat) ∨
      u.extend s = (none, u) := by
  unfold extend
  simp only [hu]
  by_cases hon : Serial.isOnOrAfter s (h.setWidth 16)
  · have hlt : (Serial.distance s (h.setWidth 16)).toNat < 2 ^ 15 :=
      (Serial.isOnOrAfter_iff_toNat (by decide) s (h.setWidth 16)).mp hon
    have hadd : (h + (Serial.distance s (h.setWidth 16)).setWidth 64).toNat =
        h.toNat + (Serial.distance s (h.setWidth 16)).toNat := by
      rw [BitVec.toNat_add, BitVec.toNat_setWidth, Nat.mod_eq_of_lt, Nat.mod_eq_of_lt] <;> omega
    left
    refine ⟨h + (Serial.distance s (h.setWidth 16)).setWidth 64, ?_, by omega, by omega⟩
    rw [if_pos hon]
  -- a number behind the highest one is some way back, for on the circle it is not the highest one
  have hne : s ≠ h.setWidth 16 := by
    intro heq
    apply hon
    rw [heq, Serial.isOnOrAfter, Serial.distance_self]
    decide
  have hpos : (Serial.distance (h.setWidth 16) s).toNat ≠ 0 := by
    intro hz
    apply hne
    unfold Serial.distance at hz
    bv_omega
  right
  rw [if_neg hon]
  by_cases hle : (Serial.distance (h.setWidth 16) s).setWidth 64 ≤ h
  · left
    refine ⟨h - (Serial.distance (h.setWidth 16) s).setWidth 64, ?_, ?_⟩
    · rw [if_pos hle]
    · rw [BitVec.toNat_sub_of_le hle, toNat_widen]
      rw [BitVec.le_def, toNat_widen] at hle
      omega
  · right
    rw [if_neg hle]

end Unwrapper

end Renumber
