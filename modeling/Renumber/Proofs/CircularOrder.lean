import Renumber.Serial
import Mathlib.Algebra.Group.Int.Defs
import Mathlib.Algebra.Group.Nat.Defs
import Mathlib.Data.Int.Notation

/-! The circular order of counters against the order of the integers that they stand for. -/
namespace Renumber.Serial

variable {w : Nat}

theorem toNat_halfRange (h : 0 < w) : (halfRange w).toNat = 2 ^ (w - 1) := by
  rw [halfRange, BitVec.toNat_twoPow, Nat.mod_eq_of_lt (Nat.pow_lt_pow_right (by omega) (by omega))]

theorem two_pow_eq_two_mul (hw : 0 < w) : (2 : ℤ) ^ w = 2 * 2 ^ (w - 1) := by
  obtain ⟨n, rfl⟩ := Nat.exists_eq_succ_of_ne_zero (Nat.pos_iff_ne_zero.mp hw)
  rw [Nat.succ_sub_one, Int.pow_succ, Int.mul_comm]

theorem lt_halfRange_iff_toNat (hw : 0 < w) (x : BitVec w) :
    x < halfRange w ↔ x.toNat < 2 ^ (w - 1) := by
  rw [BitVec.lt_def, toNat_halfRange hw]

theorem isOnOrAfter_iff_toNat (hw : 0 < w) (key reference : BitVec w) :
    isOnOrAfter key reference ↔ (distance key reference).toNat < 2 ^ (w - 1) := by
  rw [isOnOrAfter, decide_eq_true_iff, lt_halfRange_iff_toNat hw]

theorem lt_halfRange_iff (hw : 0 < w) (x : BitVec w) : x < halfRange w ↔ 0 ≤ x.toInt := by
  have hp : 2 ^ w = 2 * 2 ^ (w - 1) := by exact_mod_cast two_pow_eq_two_mul hw
  rw [lt_halfRange_iff_toNat hw, BitVec.toInt_eq_toNat_cond]
  have hx := x.isLt
  split <;> omega

theorem precedes_iff_not (key reference : BitVec w) :
    precedes key reference ↔ ¬isOnOrAfter key reference := by
  rw [precedes_eq_not, Bool.not_eq_true', Bool.not_eq_true]

theorem isOnOrAfter_self (h : 0 < (halfRange w).toNat) (key : BitVec w) :
    isOnOrAfter key key = true := by
  rw [isOnOrAfter, distance_self, decide_eq_true_eq, BitVec.lt_def]
  simpa using h

theorem neg_distance (a b : BitVec w) : -distance a b = distance b a := by
  unfold distance
  grind

theorem ofInt_sub (x y : ℤ) : BitVec.ofInt w (x - y) = BitVec.ofInt w x - BitVec.ofInt w y := by
  rw [Int.sub_eq_add_neg, BitVec.ofInt_add, BitVec.ofInt_neg, BitVec.sub_eq_add_neg]

theorem ofInt_toNat (x : BitVec w) : BitVec.ofInt w x.toNat = x := by
  rw [BitVec.ofInt_natCast, BitVec.ofNat_toNat, BitVec.setWidth_eq]

theorem toNat_ofInt_of_nonneg {x : ℤ} (hl : 0 ≤ x) (hu : x < 2 ^ w) :
    ((BitVec.ofInt w x).toNat : ℤ) = x := by
  rw [BitVec.toNat_ofInt, Int.natCast_pow, Int.cast_ofNat_Int, Int.emod_eq_of_lt hl hu,
    Int.toNat_of_nonneg hl]

theorem setWidth_ofInt (x : ℤ) : (BitVec.ofInt 64 x).setWidth 16 = BitVec.ofInt 16 x := by
  apply BitVec.eq_of_toNat_eq
  rw [BitVec.toNat_setWidth, BitVec.toNat_ofInt, BitVec.toNat_ofInt]
  omega

theorem distance_ofInt (x y : ℤ) :
    distance (BitVec.ofInt w x) (BitVec.ofInt w y) = BitVec.ofInt w (x - y) :=
  (ofInt_sub x y).symm

theorem toNat_distance_ofInt (x y : ℤ) :
    ((distance (BitVec.ofInt w x) (BitVec.ofInt w y)).toNat : ℤ) = (x - y) % 2 ^ w := by
  have hpos : (2 : ℤ) ^ w ≠ 0 := Int.pow_ne_zero (by decide)
  rw [distance_ofInt, BitVec.toNat_ofInt, Int.natCast_pow, Int.cast_ofNat_Int,
    Int.toNat_of_nonneg (Int.emod_nonneg _ hpos)]

/-- Less than half the space apart, the first half of the circle holds what lies ahead. -/
theorem ofInt_lt_halfRange (hw : 0 < w) {d : ℤ} (hl : -2 ^ (w - 1) ≤ d) (hu : d < 2 ^ (w - 1)) :
    BitVec.ofInt w d < halfRange w ↔ 0 ≤ d := by
  rw [lt_halfRange_iff hw, BitVec.toInt_ofInt_eq_self hw hl hu]

theorem ofInt_ne_zero (hw : 0 < w) {d : ℤ} (hl : -2 ^ (w - 1) ≤ d) (hu : d < 2 ^ (w - 1)) :
    BitVec.ofInt w d ≠ 0 ↔ d ≠ 0 := by
  rw [← BitVec.toInt_ne, BitVec.toInt_ofInt_eq_self hw hl hu]
  simp

theorem ofInt_inj (hw : 0 < w) {x y : ℤ} (hl : -2 ^ (w - 1) ≤ x - y) (hu : x - y < 2 ^ (w - 1)) :
    BitVec.ofInt w x = BitVec.ofInt w y ↔ x = y := by
  constructor
  · intro h
    have hd : ¬x - y ≠ 0 := fun hne =>
      (ofInt_ne_zero hw hl hu).mpr hne (by rw [ofInt_sub, h]; exact BitVec.sub_self _)
    omega
  · rintro rfl
    rfl

theorem isOnOrAfter_ofInt (hw : 0 < w) {x y : ℤ} (hl : -2 ^ (w - 1) ≤ x - y)
    (hu : x - y < 2 ^ (w - 1)) : isOnOrAfter (BitVec.ofInt w x) (BitVec.ofInt w y) ↔ y ≤ x := by
  rw [isOnOrAfter, decide_eq_true_iff, distance_ofInt, ofInt_lt_halfRange hw hl hu]
  omega

theorem precedes_ofInt (hw : 0 < w) {x y : ℤ} (hl : -2 ^ (w - 1) ≤ x - y)
    (hu : x - y < 2 ^ (w - 1)) : precedes (BitVec.ofInt w x) (BitVec.ofInt w y) ↔ x < y := by
  rw [precedes_iff_not, isOnOrAfter_ofInt hw hl hu]
  omega

theorem within_ofInt (hw : 0 < w) {x first last : ℤ} (hl : -2 ^ (w - 1) ≤ x - first)
    (hx : x ≤ last) (hlen : last - first < 2 ^ (w - 1)) :
    within (BitVec.ofInt w x) (BitVec.ofInt w first) (BitVec.ofInt w last) ↔ first ≤ x := by
  rw [within, Bool.and_eq_true, decide_eq_true_iff, decide_eq_true_iff, distance_ofInt,
    distance_ofInt, ofInt_lt_halfRange hw hl (by omega)]
  constructor
  · rintro ⟨h, -⟩
    omega
  · intro h
    exact ⟨by omega, (ofInt_lt_halfRange hw (by omega) (by omega)).mpr (by omega)⟩

/-- A gap is read as it is where both of its ends are less than half the space away. -/
theorem strictlyBetween_ofInt (hw : 0 < w) {x low high : ℤ} (hl : -2 ^ (w - 1) ≤ x - low)
    (hlow : x - low < 2 ^ (w - 1)) (hx : x < high) (hhigh : low < x → high - x < 2 ^ (w - 1)) :
    strictlyBetween (BitVec.ofInt w x) (BitVec.ofInt w low) (BitVec.ofInt w high) ↔ low < x := by
  simp only [strictlyBetween, distance_ofInt, Bool.and_eq_true, bne_iff_ne, decide_eq_true_iff,
    ofInt_lt_halfRange hw hl hlow, ofInt_ne_zero hw hl hlow]
  constructor
  · rintro ⟨⟨⟨hne, hge⟩, -⟩, -⟩
    omega
  · intro h
    have hd := hhigh h
    exact ⟨⟨⟨by omega, by omega⟩, (ofInt_ne_zero hw (by omega) hd).mpr (by omega)⟩,
      (ofInt_lt_halfRange hw (by omega) hd).mpr (by omega)⟩

end Renumber.Serial
