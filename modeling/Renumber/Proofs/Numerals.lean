import Renumber.Decimal.Digits
import Mathlib.Data.Int.Notation
import Mathlib.Data.List.Induction
import Mathlib.Data.Nat.Notation

/-! Decimal numerals. What is written for a number reads back as the number, and a numeral is what
is written for its value unless a plus sign or a needless zero stands before its digits. -/
namespace Renumber.Digits

theorem digit?_of_isDigit {c : Char} (hc : c.isDigit) : digit? c = some (c.toNat - 48) := by
  rw [Char.isDigit_iff_toNat] at hc
  exact if_pos hc

/-- Letters stand for digits from ten on. -/
theorem isDigit_ten_eq (c : Char) : isDigit 10 c = c.isDigit := by
  rw [Bool.eq_iff_iff]
  constructor
  · intro hc
    rw [Char.isDigit_iff_toNat]
    unfold isDigit digit? at hc
    split at hc
    · assumption
    split at hc
    · next hlower =>
      have hle : 97 ≤ c.toNat := hlower.1
      simp at hc
      omega
    split at hc
    · next hupper =>
      have hle : 65 ≤ c.toNat := hupper.1
      simp at hc
      omega
    · simp at hc
  · intro hc
    have hle : c.toNat ≤ 57 := (Char.isDigit_iff_toNat.mp hc).2
    rw [isDigit, digit?_of_isDigit hc, Option.any_some, decide_eq_true_eq]
    omega

theorem all_isDigit_iff (cs : List Char) : cs.all (isDigit 10) ↔ ∀ c ∈ cs, c.isDigit := by
  rw [List.all_eq_true]
  simp only [isDigit_ten_eq]

theorem value_concat (base : ℕ) (cs : List Char) (c : Char) :
    value base (cs ++ [c]) = value base cs * base + (digit? c).getD 0 := by
  rw [value, List.foldl_append]
  rfl

theorem value_eq_ofDigitChars {cs : List Char} (hcs : ∀ c ∈ cs, c.isDigit) :
    value 10 cs = Nat.ofDigitChars 10 cs 0 := by
  induction cs using List.reverseRecOn with
  | nil => rfl
  | append_singleton cs c ih =>
    rw [List.forall_mem_append] at hcs
    have hc : c.isDigit := hcs.2 c List.mem_cons_self
    rw [value_concat, ih hcs.1, digit?_of_isDigit hc, Nat.ofDigitChars_append, Nat.mul_comm]
    rfl

theorem isDigit_of_mem_toDigits {n : ℕ} {c : Char} (hc : c ∈ Nat.toDigits 10 n) : c.isDigit :=
  Nat.isDigit_of_mem_toDigits (by decide) (by decide) hc

theorem value_toDigits (n : ℕ) : value 10 (Nat.toDigits 10 n) = n := by
  rw [value_eq_ofDigitChars fun c hc => isDigit_of_mem_toDigits hc, Nat.ofDigitChars_ten_toDigits]

theorem nat?_eq_some_iff {cs : List Char} {n : ℕ} :
    nat? cs = some n ↔ cs ≠ [] ∧ (∀ c ∈ cs, c.isDigit) ∧ value 10 cs = n := by
  rw [nat?, Option.ite_none_right_eq_some, Option.some.injEq, all_isDigit_iff, and_assoc]

theorem head?_append_of_ne_nil {cs : List Char} (hne : cs ≠ []) (after : List Char) :
    (cs ++ after).head? = cs.head? := by
  obtain ⟨c, cs, rfl⟩ := List.exists_cons_of_ne_nil hne
  rfl

/-- Only the numeral of zero begins with a zero. -/
theorem head?_toDigits_ne_zero {n : ℕ} (hn : 0 < n) : (Nat.toDigits 10 n).head? ≠ some '0' := by
  induction n using Nat.strongRecOn with
  | ind n ih =>
    by_cases hlt : n < 10
    · rw [Nat.toDigits_of_lt_base hlt]
      intro hzero
      have hzero := (Nat.digitChar_eq_zero).mp (Option.some.inj hzero)
      omega
    · have hlt : n / 10 < n := by omega
      have hpos : 0 < n / 10 := by omega
      rw [Nat.toDigits_of_base_le (by decide) (by omega),
        head?_append_of_ne_nil Nat.toDigits_ne_nil]
      exact ih (n / 10) hlt hpos

/-- A needless zero stands before the digits. -/
def HasLeadingZero (cs : List Char) : Prop := cs.head? = some '0' ∧ 1 < cs.length

instance (cs : List Char) : Decidable (HasLeadingZero cs) := inferInstanceAs (Decidable (_ ∧ _))

theorem not_hasLeadingZero_toDigits (n : ℕ) : ¬HasLeadingZero (Nat.toDigits 10 n) := by
  rintro ⟨hhead, hlength⟩
  rcases Nat.eq_zero_or_pos n with rfl | hn
  · rw [Nat.toDigits_zero] at hlength
    exact absurd hlength (by decide)
  · exact head?_toDigits_ne_zero hn hhead

theorem digitChar_of_isDigit {c : Char} (hc : c.isDigit) : Nat.digitChar (c.toNat - 48) = c := by
  have hbounds : 48 ≤ c.toNat ∧ c.toNat ≤ 57 := Char.isDigit_iff_toNat.mp hc
  apply Char.toNat_inj.mp
  rw [Nat.toNat_digitChar_of_lt_ten (by omega)]
  omega

/-- Digits are those of their value if no needless zero stands before them. -/
theorem toDigits_value {cs : List Char} (hne : cs ≠ []) (hcs : ∀ c ∈ cs, c.isDigit)
    (hzero : ¬HasLeadingZero cs) : Nat.toDigits 10 (value 10 cs) = cs := by
  induction cs using List.reverseRecOn with
  | nil => exact absurd rfl hne
  | append_singleton cs c ih =>
    rw [List.forall_mem_append] at hcs
    have hc : c.isDigit := hcs.2 c List.mem_cons_self
    have hbounds : 48 ≤ c.toNat ∧ c.toNat ≤ 57 := Char.isDigit_iff_toNat.mp hc
    have hlast : Nat.toDigits 10 (c.toNat - 48) = [c] := by
      rw [Nat.toDigits_of_lt_base (by omega), digitChar_of_isDigit hc]
    rw [value_concat, digit?_of_isDigit hc, Option.getD_some]
    by_cases hnil : cs = []
    · subst hnil
      rw [value, List.foldl_nil, Nat.zero_mul, Nat.zero_add, hlast, List.nil_append]
    · have hlength : 1 < (cs ++ [c]).length := by
        have hpos := List.length_pos_iff.mpr hnil
        simp only [List.length_append, List.length_singleton]
        omega
      have hhead : cs.head? ≠ some '0' := by
        rw [← head?_append_of_ne_nil hnil [c]]
        exact fun hhead => hzero ⟨hhead, hlength⟩
      have hdigits := ih hnil hcs.1 fun hleading => hhead hleading.1
      have hpos : 0 < value 10 cs := by
        rcases Nat.eq_zero_or_pos (value 10 cs) with hvalue | hpos
        · rw [hvalue, Nat.toDigits_zero] at hdigits
          rw [← hdigits] at hhead
          exact absurd rfl hhead
        · exact hpos
      rw [Nat.mul_comm, ← Nat.toDigits_append_toDigits (by decide) hpos (by omega), hdigits, hlast]

/-- What is written for an integer. -/
theorem toList_toString (n : ℤ) : (toString n).toList =
    if 0 ≤ n then Nat.toDigits 10 n.toNat else '-' :: Nat.toDigits 10 (-n).toNat := by
  rw [Int.toString_eq_repr, Int.repr_eq_if]
  split
  · rw [Nat.repr_eq_ofList_toDigits, String.toList_ofList]
  · rw [String.toList_append, Nat.repr_eq_ofList_toDigits, String.toList_ofList,
      String.toList_ofList]
    rfl

theorem int?_eq (cs : List Char) :
    int? cs = (nat? (sign cs).2).map fun n : ℕ => if (sign cs).1 then -(n : ℤ) else n := by
  unfold int?
  split
  next negative rest hsign =>
  rw [hsign]
  cases nat? rest <;> rfl

theorem toDigits_eq_iff {cs : List Char} {n : ℕ} (h : nat? cs = some n) :
    Nat.toDigits 10 n = cs ↔ ¬HasLeadingZero cs := by
  obtain ⟨hne, hdigits, rfl⟩ := nat?_eq_some_iff.mp h
  refine ⟨fun heq => ?_, toDigits_value hne hdigits⟩
  rw [← heq]
  exact not_hasLeadingZero_toDigits _

/-- An integer is written as its value is unless it has a plus sign, a needless zero or is minus
zero. -/
theorem toList_toString_eq_iff {cs : List Char} {n : ℤ} (h : int? cs = some n) :
    (toString n).toList = cs ↔
      cs.head? ≠ some '+' ∧ ¬HasLeadingZero (sign cs).2 ∧ cs ≠ ['-', '0'] := by
  rw [int?_eq, Option.map_eq_some_iff] at h
  obtain ⟨m, hm, rfl⟩ := h
  rw [← toDigits_eq_iff hm, toList_toString]
  rcases eq_or_ne cs.head? (some '-') with hminus | hminus
  · obtain ⟨ds, rfl⟩ := List.head?_eq_some_iff.mp hminus
    change (if (0 : ℤ) ≤ -m then Nat.toDigits 10 (-m : ℤ).toNat
      else '-' :: Nat.toDigits 10 (- -m : ℤ).toNat) = '-' :: ds ↔
        _ ∧ Nat.toDigits 10 m = ds ∧ _
    rcases Nat.eq_zero_or_pos m with rfl | hpos
    · refine iff_of_false (fun heq => ?_) fun hds => hds.2.2 (congrArg _ hds.2.1.symm)
      exact absurd (List.cons.inj heq).1 (by decide)
    · rw [if_neg (by omega), Int.neg_neg, Int.toNat_natCast, List.cons.injEq]
      have hzero : Nat.toDigits 10 m = ds → '-' :: ds ≠ ['-', '0'] := by
        rintro rfl heq
        have hvalue := value_toDigits m
        rw [(List.cons.inj heq).2] at hvalue
        exact absurd hvalue.symm (Nat.pos_iff_ne_zero.mp hpos)
      exact ⟨fun heq => ⟨by simp, heq.2, hzero heq.2⟩, fun heq => ⟨rfl, heq.2.1⟩⟩
  rcases eq_or_ne cs.head? (some '+') with hplus | hplus
  · obtain ⟨ds, rfl⟩ := List.head?_eq_some_iff.mp hplus
    refine iff_of_false (fun heq => ?_) fun hds => hds.1 rfl
    change (if (0 : ℤ) ≤ m then Nat.toDigits 10 (m : ℤ).toNat
      else '-' :: Nat.toDigits 10 (-m : ℤ).toNat) = '+' :: ds at heq
    rw [if_pos (Int.natCast_nonneg m)] at heq
    have hdigit : '+'.isDigit := isDigit_of_mem_toDigits (heq ▸ List.mem_cons_self)
    exact absurd hdigit (by decide)
  · have hsign : sign cs = (false, cs) := by
      unfold sign
      split <;> simp_all
    rw [hsign] at hm ⊢
    have hminusZero : cs ≠ ['-', '0'] := fun heq => hminus (heq ▸ rfl)
    change (if (0 : ℤ) ≤ m then Nat.toDigits 10 (m : ℤ).toNat
      else '-' :: Nat.toDigits 10 (-m : ℤ).toNat) = cs ↔ _
    rw [if_pos (Int.natCast_nonneg m), Int.toNat_natCast]
    exact ⟨fun heq => ⟨hplus, heq, hminusZero⟩, fun heq => heq.2.1⟩

end Renumber.Digits
