import Renumber.Proofs.CircularOrder
import Mathlib.Logic.ExistsUnique
import Mathlib.Tactic.Zify

/-! How far the comparisons on the circle can be trusted. Two keys stand to each other as integers
less than half the space apart do, and an interval shorter than half the space holds the keys that
lie within its length of its start. Open intervals may be as long as half the space. -/
namespace Renumber.Serial

variable {w : ℕ} {a b : BitVec w}

/-- How a key can stand to another one. -/
def Stands (a b : BitVec w) : Ordering → Prop
  | .lt => precedes a b
  | .eq => a = b
  | .gt => precedes b a

theorem stands_ofInt_iff (hw : 0 < w) {x y : ℤ} (hl : -2 ^ (w - 1) < x - y)
    (hu : x - y < 2 ^ (w - 1)) (o : Ordering) :
    Stands (BitVec.ofInt w x) (BitVec.ofInt w y) o ↔ compare x y = o := by
  cases o with
  | lt => exact (precedes_ofInt hw (Int.le_of_lt hl) hu).trans Int.compare_eq_lt.symm
  | eq => exact (ofInt_inj hw (Int.le_of_lt hl) hu).trans Int.compare_eq_eq.symm
  | gt => exact (precedes_ofInt hw (by omega) (by omega)).trans Int.compare_eq_gt.symm

theorem exists_ofInt_eq (a b : BitVec w) :
    ∃ x y : ℤ, BitVec.ofInt w x = a ∧ BitVec.ofInt w y = b ∧ x - y = (distance a b).toInt := by
  refine ⟨(distance a b).toInt + b.toNat, b.toNat, ?_, ofInt_toNat b, by omega⟩
  rw [BitVec.ofInt_add, BitVec.ofInt_toInt, ofInt_toNat, distance, BitVec.sub_add_cancel]

/-- Only the number that is half the space away from zero has no opposite as a signed one. -/
theorem toInt_bounds (hw : 0 < w) {x : BitVec w} (h : x.toNat ≠ 2 ^ (w - 1)) :
    -2 ^ (w - 1) < x.toInt ∧ x.toInt < 2 ^ (w - 1) := by
  have htwo := Nat.two_pow_pred_mul_two hw
  have hcast : ((2 ^ (w - 1) : ℕ) : ℤ) = 2 ^ (w - 1) := by norm_cast
  have hx := x.isLt
  rw [BitVec.toInt_eq_toNat_cond]
  split <;> omega

/-- Keys that are not exactly half the space apart stand for integers that are closer than that. -/
theorem existsUnique_stands (hw : 0 < w) (h : (distance a b).toNat ≠ 2 ^ (w - 1)) :
    ∃! o, Stands a b o := by
  obtain ⟨hl, hu⟩ := toInt_bounds hw h
  obtain ⟨x, y, rfl, rfl, hdist⟩ := exists_ofInt_eq a b
  rw [← hdist] at hl hu
  refine ⟨compare x y, (stands_ofInt_iff hw hl hu _).mpr rfl, fun o ho => ?_⟩
  exact ((stands_ofInt_iff hw hl hu o).mp ho).symm

theorem toNat_distance_of_half (hw : 0 < w) (h : (distance a b).toNat = 2 ^ (w - 1)) :
    (distance b a).toNat = 2 ^ (w - 1) := by
  have htwo := Nat.two_pow_pred_mul_two hw
  have hpos := Nat.two_pow_pos (w - 1)
  rw [← neg_distance, BitVec.toNat_neg, h, Nat.mod_eq_of_lt (by omega)]
  omega

theorem precedes_of_half (hw : 0 < w) (h : (distance a b).toNat = 2 ^ (w - 1)) :
    precedes a b := by
  rw [precedes_iff_not, isOnOrAfter_iff_toNat hw, h]
  exact Nat.lt_irrefl _

section Interval

variable {start key : BitVec w} {length : ℕ}

/-- From the key on, what is left of the interval is shorter by how far the key lies into it. -/
theorem distance_add_ofNat (start key : BitVec w) (length : ℕ) :
    distance (start + BitVec.ofNat w length) key =
      BitVec.ofInt w (length - (distance key start).toNat) := by
  rw [ofInt_sub, ofInt_toNat, BitVec.ofInt_natCast]
  unfold distance
  grind

theorem distance_add_lt_halfRange_iff (hw : 0 < w)
    (hkey : (distance key start).toNat < 2 ^ (w - 1))
    (hlength : length < 2 ^ (w - 1) + (distance key start).toNat) :
    distance (start + BitVec.ofNat w length) key < halfRange w ↔
      (distance key start).toNat ≤ length := by
  zify at hkey hlength
  rw [distance_add_ofNat, ofInt_lt_halfRange hw (by omega) (by omega)]
  omega

theorem distance_add_ne_zero_iff (hw : 0 < w)
    (hkey : (distance key start).toNat < 2 ^ (w - 1))
    (hlength : length < 2 ^ (w - 1) + (distance key start).toNat) :
    distance (start + BitVec.ofNat w length) key ≠ 0 ↔ (distance key start).toNat ≠ length := by
  zify at hkey hlength
  rw [distance_add_ofNat, ofInt_ne_zero hw (by omega) (by omega)]
  omega

theorem within_add_iff (hw : 0 < w) (start key : BitVec w) (hlength : length < 2 ^ (w - 1)) :
    within key start (start + BitVec.ofNat w length) ↔ (distance key start).toNat ≤ length := by
  rw [within, Bool.and_eq_true, decide_eq_true_iff, decide_eq_true_iff, lt_halfRange_iff_toNat hw]
  by_cases hkey : (distance key start).toNat < 2 ^ (w - 1)
  · rw [and_iff_right hkey, distance_add_lt_halfRange_iff hw hkey (by omega)]
  · -- the key is too far from the start, and the interval ends before that
    omega

/-- Only a key other than the start can be inside, so that the end is less than half the space away
from it even if the interval takes up half the space. -/
theorem strictlyBetween_add_iff (hw : 0 < w) (low key : BitVec w)
    (hlength : length ≤ 2 ^ (w - 1)) :
    strictlyBetween key low (low + BitVec.ofNat w length) ↔
      0 < (distance key low).toNat ∧ (distance key low).toNat < length := by
  have hnonzero : distance key low ≠ 0 ↔ 0 < (distance key low).toNat := by
    rw [ne_eq, ← BitVec.toNat_inj, Nat.pos_iff_ne_zero]
    rfl
  simp only [strictlyBetween, Bool.and_eq_true, bne_iff_ne, decide_eq_true_iff, hnonzero,
    lt_halfRange_iff_toNat hw (distance key low)]
  by_cases hkey : 0 < (distance key low).toNat ∧ (distance key low).toNat < 2 ^ (w - 1)
  · rw [distance_add_lt_halfRange_iff hw hkey.2 (by omega),
      distance_add_ne_zero_iff hw hkey.2 (by omega)]
    omega
  · omega

end Interval

/-- The comparisons on the circle against integers. Residues of integers at most half the space
apart are ordered as the integers are. Two keys that are not exactly half the space apart are equal
or one of them precedes the other, while at that distance each one precedes the other. Up to the
lengths given here, an interval holds exactly the keys that its length tells. -/
theorem comparisons_agree (hw : 0 < w) :
    (∀ x y : ℤ, -2 ^ (w - 1) ≤ x - y → x - y < 2 ^ (w - 1) →
        (isOnOrAfter (BitVec.ofInt w x) (BitVec.ofInt w y) ↔ y ≤ x) ∧
          (precedes (BitVec.ofInt w x) (BitVec.ofInt w y) ↔ x < y)) ∧
      (∀ a b : BitVec w, (distance a b).toNat ≠ 2 ^ (w - 1) → ∃! o, Stands a b o) ∧
      (∀ a b : BitVec w, (distance a b).toNat = 2 ^ (w - 1) → precedes a b ∧ precedes b a) ∧
      (∀ (start key : BitVec w) (length : ℕ), length < 2 ^ (w - 1) →
        (within key start (start + BitVec.ofNat w length) ↔
          (distance key start).toNat ≤ length)) ∧
      ∀ (low key : BitVec w) (length : ℕ), length ≤ 2 ^ (w - 1) →
        (strictlyBetween key low (low + BitVec.ofNat w length) ↔
          0 < (distance key low).toNat ∧ (distance key low).toNat < length) := by
  refine ⟨fun x y hl hu => ⟨isOnOrAfter_ofInt hw hl hu, precedes_ofInt hw hl hu⟩,
    fun a b h => existsUnique_stands hw h, fun a b h => ⟨precedes_of_half hw h, ?_⟩,
    fun start key length hlength => within_add_iff hw start key hlength,
    fun low key length hlength => strictlyBetween_add_iff hw low key hlength⟩
  exact precedes_of_half hw (toNat_distance_of_half hw h)

/-- Integers half the space apart, and intervals of the greatest lengths from the last key on. -/
theorem comparisons_agree_overWrap :
    0 < 64 ∧ precedes (BitVec.ofInt 64 (-1)) (BitVec.ofInt 64 (2 ^ 63 - 1)) ∧
      (∃! o, Stands (-1#64) 0#64 o) ∧
      precedes (BitVec.ofNat 64 (2 ^ 63 - 1)) (-1#64) ∧
      within (BitVec.ofNat 64 (2 ^ 63 - 2)) (-1#64) (-1#64 + BitVec.ofNat 64 (2 ^ 63 - 1)) ∧
      ¬within (BitVec.ofNat 64 (2 ^ 63 - 1)) (-1#64) (-1#64 + BitVec.ofNat 64 (2 ^ 63 - 1)) ∧
      strictlyBetween (BitVec.ofNat 64 (2 ^ 63 - 2)) (-1#64) (-1#64 + BitVec.ofNat 64 (2 ^ 63)) ∧
      ¬strictlyBetween (-1#64) (-1#64) (-1#64 + BitVec.ofNat 64 (2 ^ 63)) := by
  obtain ⟨horder, honce, hhalf, hwithin, hbetween⟩ := @comparisons_agree 64 (by decide)
  exact ⟨by decide, (horder (-1) (2 ^ 63 - 1) (by decide) (by decide)).2.mpr (by decide),
    honce _ _ (by decide), (hhalf (-1#64) (BitVec.ofNat 64 (2 ^ 63 - 1)) (by decide)).2,
    (hwithin _ _ _ (by decide)).mpr (by decide), mt (hwithin _ _ _ (by decide)).mp (by decide),
    (hbetween _ _ _ (by decide)).mpr (by decide), mt (hbetween _ _ _ (by decide)).mp (by decide)⟩

end Renumber.Serial
