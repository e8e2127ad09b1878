import Renumber.Proofs.Unwrapping
import Mathlib.Data.List.Induction
import Mathlib.Order.MinMax

/-! The unwrapper recovers a sequence of numbers from their low 16 bits, as long as each number lies
near the highest one before it. -/
namespace Renumber.Unwrapper

def after (u : Unwrapper) (numbers : List (BitVec 16)) : Unwrapper :=
  numbers.foldl (fun u n => (u.extend n).2) u

/-- The integer has the given low bits, and lies less than half of the 16-bit numbers ahead of the
highest number or at most half of them behind it. -/
structure Near (highest : BitVec 64) (n : BitVec 16) (x : ℤ) : Prop where
  low : highest.toNat - 2 ^ 15 ≤ x
  high : x ≤ highest.toNat + 2 ^ 15 - 1
  bits : BitVec.ofInt 16 x = n

/-- How a sequence may go on: the first number of all fits into 16 bits, and each later one lies
near the highest one before it. -/
def Continues (earlier : List ℕ) (x : ℕ) : Prop :=
  x < 2 ^ 64 ∧ (earlier = [] → x < 2 ^ 16) ∧
    ∀ highest ∈ earlier.max?, highest ≤ x + 2 ^ 15 ∧ x ≤ highest + 2 ^ 15 - 1

instance (earlier : List ℕ) (x : ℕ) : Decidable (Continues earlier x) :=
  inferInstanceAs (Decidable (_ ∧ _ ∧ _))

/-- Each number of the sequence goes on from those before it. -/
def Gradual (numbers : List ℕ) : Prop :=
  ∀ earlier x, earlier ++ [x] <+: numbers → Continues earlier x

variable {u : Unwrapper} {highest : BitVec 64} {n : BitVec 16} {x : ℤ}

/-- There is one such integer. -/
theorem near_iff (highest : BitVec 64) (n : BitVec 16) (x : ℤ) :
    Near highest n x ↔ x = highest.toNat + (n - highest.setWidth 16).toInt := by
  have hnewest : BitVec.ofInt 16 highest.toNat = highest.setWidth 16 := by
    rw [← Serial.setWidth_ofInt, Serial.ofInt_toNat]
  constructor
  · rintro ⟨hlow, hhigh, rfl⟩
    rw [← hnewest, ← Serial.ofInt_sub,
      BitVec.toInt_ofInt_eq_self (by decide) (by omega) (by omega)]
    omega
  · rintro rfl
    have hlow := BitVec.le_toInt (n - highest.setWidth 16)
    have hhigh := BitVec.toInt_lt (x := n - highest.setWidth 16)
    refine ⟨by omega, by omega, ?_⟩
    rw [BitVec.ofInt_add, hnewest, BitVec.ofInt_toInt, BitVec.add_comm, BitVec.sub_add_cancel]

theorem widen_ofInt {d : ℤ} (hl : 0 ≤ d) (hu : d < 2 ^ 16) :
    (BitVec.ofInt 16 d).setWidth 64 = BitVec.ofInt 64 d := by
  have hshort : ((BitVec.ofInt 16 d).toNat : ℤ) = d := Serial.toNat_ofInt_of_nonneg hl hu
  have hlong : ((BitVec.ofInt 64 d).toNat : ℤ) = d := Serial.toNat_ofInt_of_nonneg hl (by omega)
  apply BitVec.eq_of_toNat_eq
  rw [toNat_widen]
  omega

/-- A number is extended to the nearest integer, unless that lies before zero. -/
theorem extend_of_near (hu : u.highest = some highest) (hx : Near highest n x) :
    u.extend n = if x < 0 then (none, u)
      else (some (BitVec.ofInt 64 x), ⟨some (BitVec.ofInt 64 (max highest.toNat x))⟩) := by
  obtain ⟨hlow, hhigh, rfl⟩ := hx
  have hnewest : highest.setWidth 16 = BitVec.ofInt 16 highest.toNat := by
    rw [← Serial.setWidth_ofInt, Serial.ofInt_toNat]
  have hon := Serial.isOnOrAfter_ofInt (w := 16) (by decide) (x := x) (y := highest.toNat)
    (by omega) (by omega)
  unfold extend
  simp only [hu, hnewest, hon]
  by_cases hle : highest.toNat ≤ x
  · have hahead : highest + (Serial.distance (BitVec.ofInt 16 x)
        (BitVec.ofInt 16 highest.toNat)).setWidth 64 = BitVec.ofInt 64 x := by
      rw [Serial.distance_ofInt, widen_ofInt (by omega) (by omega), Serial.ofInt_sub,
        Serial.ofInt_toNat, BitVec.add_comm, BitVec.sub_add_cancel]
    rw [if_pos hle, hahead, max_eq_right hle, if_neg (by omega)]
  -- the way back is exact in 16 bits and in 64, and longer than the highest number only before zero
  · have hbehind : (Serial.distance (BitVec.ofInt 16 highest.toNat)
        (BitVec.ofInt 16 x)).setWidth 64 = BitVec.ofInt 64 (highest.toNat - x) := by
      rw [Serial.distance_ofInt, widen_ofInt (by omega) (by omega)]
    have hread : ((BitVec.ofInt 64 (highest.toNat - x)).toNat : ℤ) = highest.toNat - x :=
      Serial.toNat_ofInt_of_nonneg (by omega) (by omega)
    have hfits : BitVec.ofInt 64 (highest.toNat - x) ≤ highest ↔ ¬x < 0 := by
      rw [BitVec.le_def]
      omega
    have hback : highest - BitVec.ofInt 64 (highest.toNat - x) = BitVec.ofInt 64 x := by
      rw [← Serial.ofInt_toNat highest, ← Serial.ofInt_sub, Serial.ofInt_toNat]
      congr 1
      omega
    have hstays : (⟨some highest⟩ : Unwrapper) = u := by rw [← hu]
    rw [if_neg hle, hbehind, max_eq_left (by omega), Serial.ofInt_toNat, hstays, hback]
    by_cases hneg : x < 0
    · rw [if_neg (by simp [hfits, hneg]), if_pos hneg]
    · rw [if_pos (hfits.2 hneg), if_neg hneg]

/-! ### A sequence of numbers -/

theorem after_concat (u : Unwrapper) (numbers : List (BitVec 16)) (n : BitVec 16) :
    u.after (numbers ++ [n]) = ((u.after numbers).extend n).2 := by
  unfold after
  rw [List.foldl_append, List.foldl_cons, List.foldl_nil]

theorem max?_concat (xs : List ℕ) (x : ℕ) :
    (xs ++ [x]).max? = some (xs.max?.elim x (max · x)) := by
  cases xs with
  | nil => rfl
  | cons y ys => rw [List.cons_append, List.max?_cons', List.max?_cons', List.foldl_append]; rfl

namespace Gradual

variable {numbers earlier : List ℕ} {x : ℕ}

theorem mono (h : Gradual numbers) (hstarts : earlier <+: numbers) : Gradual earlier :=
  fun before x hx => h before x (hx.trans hstarts)

theorem lt_of_mem (h : Gradual numbers) (hx : x ∈ numbers) : x < 2 ^ 64 := by
  obtain ⟨before, later, rfl⟩ := List.append_of_mem hx
  exact (h before x ⟨later, by simp⟩).1

end Gradual

theorem gradual_iff {numbers : List ℕ} :
    Gradual numbers ↔ ∀ i, ∀ h : i < numbers.length, Continues (numbers.take i) numbers[i] := by
  constructor
  · intro h i hi
    apply h
    rw [List.take_append_getElem]
    exact List.take_prefix ..
  · rintro h earlier x ⟨later, rfl⟩
    simpa using h earlier.length (by simp)

instance : DecidablePred Gradual := fun _ => decidable_of_iff' _ gradual_iff

/-- An unwrapper whose highest number is that of the sequence reads the next number off its low
bits. -/
theorem extend_next {earlier : List ℕ} {x : ℕ} (h : Gradual (earlier ++ [x]))
    (hu : u.highest = earlier.max?.map (BitVec.ofNat 64)) :
    u.extend (BitVec.ofNat 16 x) =
      (some (BitVec.ofNat 64 x), ⟨(earlier ++ [x]).max?.map (BitVec.ofNat 64)⟩) := by
  have hnext : Continues earlier x := h earlier x List.prefix_rfl
  obtain ⟨hlt, hfirst, hclose⟩ := hnext
  rw [max?_concat]
  cases hmax : earlier.max? with
  | none =>
    rw [hmax] at hu
    have hshort : x < 2 ^ 16 := hfirst (List.max?_eq_none_iff.1 hmax)
    have hwiden : (BitVec.ofNat 16 x).setWidth 64 = BitVec.ofNat 64 x := by
      apply BitVec.eq_of_toNat_eq
      rw [toNat_widen, BitVec.toNat_ofNat, BitVec.toNat_ofNat, Nat.mod_eq_of_lt hshort,
        Nat.mod_eq_of_lt hlt]
    rw [extend_of_none hu, hwiden]
    rfl
  | some highest =>
    rw [hmax] at hu
    obtain ⟨hlow, hhigh⟩ := hclose highest hmax
    have hfits : highest < 2 ^ 64 :=
      h.lt_of_mem (List.mem_append_left _ (List.max?_mem hmax))
    have hread : (BitVec.ofNat 64 highest).toNat = highest := by
      rw [BitVec.toNat_ofNat, Nat.mod_eq_of_lt hfits]
    have hnear : Near (BitVec.ofNat 64 highest) (BitVec.ofNat 16 x) (x : ℤ) := by
      constructor
      · omega
      · omega
      · rw [BitVec.ofInt_natCast]
    have hgreater : max (highest : ℤ) x = (max highest x : ℕ) := by omega
    rw [extend_of_near hu hnear, hread, if_neg (by omega), hgreater, BitVec.ofInt_natCast,
      BitVec.ofInt_natCast]
    rfl

/-- After a gradual sequence the highest number is the greatest one of the sequence. -/
theorem highest_after (hu : u.highest = none) {numbers : List ℕ} (h : Gradual numbers) :
    (u.after (numbers.map (BitVec.ofNat 16))).highest =
      numbers.max?.map (BitVec.ofNat 64) := by
  induction numbers using List.reverseRecOn with
  | nil => exact hu
  | append_singleton earlier x ih =>
    have hearlier := ih (h.mono (List.prefix_append earlier [x]))
    rw [List.map_append, List.map_singleton, after_concat, extend_next h hearlier]

/-- The unwrapper recovers the numbers. From a new one, a gradual sequence is read off its low bits
number by number, and the highest number is the greatest one so far. Whatever the highest number
is, there is one integer near it with given low bits, and only if it lies before zero the extension
fails, and changes nothing. -/
theorem extend_recovers (u : Unwrapper) :
    (u.highest = none → ∀ numbers, Gradual numbers →
      ∀ earlier x, earlier ++ [x] <+: numbers →
        ((u.after (earlier.map (BitVec.ofNat 16))).extend (BitVec.ofNat 16 x)).1 =
            some (BitVec.ofNat 64 x) ∧
          (u.after ((earlier ++ [x]).map (BitVec.ofNat 16))).highest =
            (earlier ++ [x]).max?.map (BitVec.ofNat 64)) ∧
      ∀ highest, u.highest = some highest → ∀ n, ∃ x : ℤ, (∀ y, Near highest n y ↔ y = x) ∧
        ((u.extend n).1 = none ↔ x < 0) ∧ (x < 0 → (u.extend n).2 = u) ∧
        (0 ≤ x → u.extend n =
          (some (BitVec.ofInt 64 x), ⟨some (BitVec.ofInt 64 (max highest.toNat x))⟩)) := by
  constructor
  · intro hu numbers h earlier x hstarts
    have hsofar : Gradual (earlier ++ [x]) := h.mono hstarts
    have hbefore := highest_after hu (hsofar.mono (List.prefix_append earlier [x]))
    exact ⟨by rw [extend_next hsofar hbefore], highest_after hu hsofar⟩
  · intro highest hu n
    have hiff := near_iff highest n
    refine ⟨highest.toNat + (n - highest.setWidth 16).toInt, hiff, ?_⟩
    rw [extend_of_near hu ((hiff _).2 rfl)]
    split <;> simp_all

/-- A late number and two wraps are recovered; from the highest number 5 the low bits of `-2` are not
extended. -/
theorem extend_recovers_two_wraps :
    (((({} : Unwrapper).after ([65000, 97000, 70000, 129000].map (BitVec.ofNat 16))).extend
        (BitVec.ofNat 16 131073)).1 = some 131073 ∧
      (({} : Unwrapper).after ([65000, 97000, 70000, 129000, 131073].map
        (BitVec.ofNat 16))).highest = some 131073) ∧
      (⟨some 5⟩ : Unwrapper).extend (-2) = (none, ⟨some 5⟩) := by
  constructor
  · exact (extend_recovers {}).1 rfl [65000, 97000, 70000, 129000, 131073] (by decide)
      [65000, 97000, 70000, 129000] 131073 List.prefix_rfl
  · obtain ⟨x, hnear, hnone, hstays, -⟩ := (extend_recovers ⟨some 5⟩).2 5 rfl (-2)
    have hx : (-2 : ℤ) = x := (hnear _).1 ⟨by decide, by decide, by decide⟩
    have hneg : x < 0 := by omega
    exact Prod.ext (hnone.2 hneg) (hstays hneg)

end Renumber.Unwrapper
