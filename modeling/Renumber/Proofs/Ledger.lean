import Mathlib

/-! The books of one incoming stream: which numbers were left out, which ones were reserved at which
head, and hence the slot of every incoming number in the outgoing stream. -/
namespace Renumber

@[ext]
structure Ledger where
  /-- The first incoming number. -/
  first : Option ℤ := none
  /-- The slot of the first incoming number, less that number. -/
  shift : ℤ := 0
  /-- The incoming numbers left out of the outgoing stream. -/
  dropped : Finset ℤ := ∅
  /-- The outgoing numbers reserved at once, each time with the head of the moment. -/
  reserved : List (ℤ × List ℤ) := []

namespace Ledger

/-- The place of an incoming number in the outgoing stream: numbers left out before it pull it
back, numbers reserved before it push it forth. -/
def slot (g : Ledger) (x : ℤ) : ℤ :=
  x + g.shift - (g.dropped.filter (· < x)).card +
    ((g.reserved.filter (·.1 < x)).map (·.2.length)).sum

/-- The outgoing numbers reserved so far. -/
def numbers (g : Ledger) : Multiset ℤ := (g.reserved.flatMap (·.2) : List ℤ)

/-- The slots of the incoming numbers from `first` up to `next` that were not left out. -/
noncomputable def slots (g : Ledger) (first next : ℤ) : Multiset ℤ :=
  ((Multiset.Ico first next).filter (· ∉ g.dropped)).map g.slot

def drop (g : Ledger) (x : ℤ) : Ledger := { g with dropped := insert x g.dropped }

def reserve (g : Ledger) (head : ℤ) (numbers : List ℤ) : Ledger :=
  { g with reserved := g.reserved ++ [(head, numbers)] }

/-- All entries concern incoming numbers from `first` up to `next`. The slots of these and the
reserved numbers fill an interval, and none is taken twice. -/
structure Spans (g : Ledger) (first next : ℤ) : Prop where
  dropped : ∀ d ∈ g.dropped, first ≤ d ∧ d < next
  reserved : ∀ r ∈ g.reserved, first ≤ r.1 ∧ r.1 < next
  full : g.slots first next + g.numbers = Multiset.Ico (g.slot first) (g.slot next)

theorem slot_drop_of_le (g : Ledger) {x e : ℤ} (h : x ≤ e) : (g.drop e).slot x = g.slot x := by
  have he : ¬e < x := by omega
  simp [slot, drop, Finset.filter_insert, he]

theorem slot_drop_of_lt (g : Ledger) {x e : ℤ} (h : e < x) (he : e ∉ g.dropped) :
    (g.drop e).slot x = g.slot x - 1 := by
  have hcard : ((insert e g.dropped).filter (· < x)).card =
      (g.dropped.filter (· < x)).card + 1 := by
    rw [Finset.filter_insert, if_pos h, Finset.card_insert_of_notMem (by simp [he])]
  simp only [slot, drop, hcard]
  omega

theorem mem_numbers_reserve (g : Ledger) (head : ℤ) {ns : List ℤ} {m : ℤ} (hm : m ∈ ns) :
    m ∈ (g.reserve head ns).numbers := by
  simp [numbers, reserve, hm]

theorem slot_reserve_of_le (g : Ledger) {x head : ℤ} (ns : List ℤ) (h : x ≤ head) :
    (g.reserve head ns).slot x = g.slot x := by
  have hh : ¬head < x := by omega
  simp [slot, reserve, hh]

theorem slot_reserve_of_lt (g : Ledger) {x head : ℤ} (ns : List ℤ) (h : head < x) :
    (g.reserve head ns).slot x = g.slot x + ns.length := by
  simp [slot, reserve, h]
  omega

private theorem card_filter_lt_add_one (s : Finset ℤ) (x : ℤ) :
    (s.filter (· < x + 1)).card = (s.filter (· < x)).card + if x ∈ s then 1 else 0 := by
  by_cases hx : x ∈ s
  · have hinsert : s.filter (· < x + 1) = insert x (s.filter (· < x)) := by
      ext y
      simp only [Finset.mem_filter, Finset.mem_insert]
      constructor
      · rintro ⟨hy, hlt⟩
        have : y = x ∨ y < x := by omega
        exact this.imp_right fun hlt => ⟨hy, hlt⟩
      · rintro (rfl | ⟨hy, hlt⟩)
        · exact ⟨hx, by omega⟩
        · exact ⟨hy, by omega⟩
    rw [hinsert, Finset.card_insert_of_notMem (by simp), if_pos hx]
  · have hsame : s.filter (· < x + 1) = s.filter (· < x) := by
      apply Finset.filter_congr
      intro y hy
      have hne : y ≠ x := by
        rintro rfl
        exact hx hy
      omega
    rw [hsame, if_neg hx, Nat.add_zero]

private theorem sum_filter_lt_add_one (rs : List (ℤ × List ℤ)) (x : ℤ) :
    ((rs.filter (·.1 < x + 1)).map (·.2.length)).sum =
      ((rs.filter (·.1 < x)).map (·.2.length)).sum +
        ((rs.filter (·.1 = x)).map (·.2.length)).sum := by
  induction rs with
  | nil => rfl
  | cons r rs ih =>
    rcases lt_trichotomy r.1 x with hlt | he | hgt
    · have hlt' : r.1 < x + 1 := by omega
      have hne : ¬r.1 = x := by omega
      simp only [List.filter_cons, hlt', hlt, hne, decide_true, decide_false, if_true,
        Bool.false_eq_true, if_false, List.map_cons, List.sum_cons, ih]
      omega
    · have hlt' : r.1 < x + 1 := by omega
      have hlt : ¬r.1 < x := by omega
      simp only [List.filter_cons, hlt', hlt, decide_eq_true he, decide_true, decide_false, if_true,
        Bool.false_eq_true, if_false, List.map_cons, List.sum_cons, ih]
      omega
    · have hlt' : ¬r.1 < x + 1 := by omega
      have hlt : ¬r.1 < x := by omega
      have hne : ¬r.1 = x := by omega
      simp only [List.filter_cons, hlt', hlt, hne, decide_false, Bool.false_eq_true, if_false, ih]

/-- From one incoming number to the next, the slot moves on by one if the number was not left out,
and by the numbers reserved there. -/
theorem slot_add_one (g : Ledger) (x : ℤ) :
    g.slot (x + 1) = g.slot x + (if x ∈ g.dropped then 0 else 1) +
      ((g.reserved.filter (·.1 = x)).map (·.2.length)).sum := by
  have hdrop := card_filter_lt_add_one g.dropped x
  have hres := sum_filter_lt_add_one g.reserved x
  simp only [slot, hres, hdrop]
  split <;> omega

theorem slot_mono (g : Ledger) : Monotone g.slot := by
  apply monotone_int_of_le_succ
  intro x
  rw [slot_add_one]
  split <;> omega

theorem slot_lt (g : Ledger) {x y : ℤ} (h : x < y) (hx : x ∉ g.dropped) : g.slot x < g.slot y := by
  have hstep := g.slot_add_one x
  have hrest := g.slot_mono (show x + 1 ≤ y by omega)
  rw [if_neg hx] at hstep
  omega

theorem slot_inj (g : Ledger) {x y : ℤ} (hx : x ∉ g.dropped) (hy : y ∉ g.dropped)
    (h : g.slot x = g.slot y) : x = y := by
  rcases lt_trichotomy x y with hlt | he | hgt
  · have := g.slot_lt hlt hx
    omega
  · exact he
  · have := g.slot_lt hgt hy
    omega

private theorem coe_range_add (x : ℤ) (count : ℕ) :
    ((List.range count).map fun i : ℕ => x + i : Multiset ℤ) =
      Multiset.Ico x (x + count) := by
  induction count with
  | zero => simp
  | succ count ih =>
    have hsplit := Multiset.Ico_add_Ico_eq_Ico (show x ≤ x + count by omega)
      (show x + (count : ℤ) ≤ x + (count + 1 : ℕ) by omega)
    have hlast : Finset.Ico (x + count) (x + (count + 1 : ℕ)) = {x + (count : ℤ)} := by
      ext y
      simp only [Finset.mem_Ico, Finset.mem_singleton]
      omega
    rw [List.range_succ, List.map_append, ← Multiset.coe_add, ih, ← hsplit]
    exact congrArg (_ + Finset.val ·) hlast.symm

namespace Spans

variable {g : Ledger} {first next : ℤ}

theorem slot_of_le (h : g.Spans first next) {x : ℤ} (hx : x ≤ first) :
    g.slot x = x + g.shift := by
  have hd : g.dropped.filter (· < x) = ∅ := by
    apply Finset.filter_eq_empty_iff.mpr
    intro d hd
    have := h.dropped d hd
    omega
  have hr : g.reserved.filter (·.1 < x) = [] := by
    apply List.filter_eq_nil_iff.mpr
    intro r hr
    have := h.reserved r hr
    simp only [decide_eq_true_eq]
    omega
  simp [slot, hd, hr]

theorem slot_of_ge (h : g.Spans first next) {x : ℤ} (hx : next ≤ x) :
    g.slot x = g.slot next + (x - next) := by
  have hd : ∀ y, next ≤ y → g.dropped.filter (· < y) = g.dropped := by
    intro y hy
    apply Finset.filter_true_of_mem
    intro d hd
    have := h.dropped d hd
    omega
  have hr : ∀ y, next ≤ y → g.reserved.filter (·.1 < y) = g.reserved := by
    intro y hy
    apply List.filter_eq_self.mpr
    intro r hr
    have := h.reserved r hr
    simp only [decide_eq_true_eq]
    omega
  simp only [slot, hd x hx, hd next le_rfl, hr x hx, hr next le_rfl]
  omega

theorem notMem_dropped (h : g.Spans first next) {x : ℤ} (hx : next ≤ x) : x ∉ g.dropped := by
  intro hd
  have := h.dropped x hd
  omega

theorem mem_numbers (h : g.Spans first next) {m : ℤ} (hm : m ∈ g.numbers) :
    g.slot first ≤ m ∧ m < g.slot next := by
  have hmem : m ∈ Multiset.Ico (g.slot first) (g.slot next) := by
    rw [← h.full]
    exact Multiset.mem_add.mpr (Or.inr hm)
  exact Multiset.mem_Ico.mp hmem

/-- A slot is not reserved. -/
theorem slot_notMem_numbers (h : g.Spans first next) {x : ℤ} (hf : first ≤ x) (hx : x < next)
    (hd : x ∉ g.dropped) : g.slot x ∉ g.numbers := by
  have hnodup : (g.slots first next + g.numbers).Nodup := by
    rw [h.full]
    exact Multiset.nodup_Ico
  have hslot : g.slot x ∈ g.slots first next :=
    Multiset.mem_map_of_mem _ (Multiset.mem_filter.mpr ⟨Multiset.mem_Ico.mpr ⟨hf, hx⟩, hd⟩)
  exact Multiset.disjoint_left.mp (Multiset.nodup_add.mp hnodup).2.2 hslot

theorem blank (hd : g.dropped = ∅) (hr : g.reserved = []) (first : ℤ) : g.Spans first first := by
  refine ⟨by simp [hd], by simp [hr], ?_⟩
  simp [slots, numbers, hr]

/-- Incoming numbers without an entry take their slots in order. -/
theorem advance (h : g.Spans first next) (hle : first ≤ next) {next' : ℤ} (hn : next ≤ next') :
    g.Spans first next' := by
  refine ⟨fun d hd => ?_, fun r hr => ?_, ?_⟩
  · have := h.dropped d hd
    omega
  · have := h.reserved r hr
    omega
  -- there is no entry from `next` on, so these slots run on in order
  have hslots : g.slots next next' = Multiset.Ico (g.slot next) (g.slot next') := by
    have hall : (Multiset.Ico next next').filter (· ∉ g.dropped) = Multiset.Ico next next' := by
      apply Multiset.filter_eq_self.mpr
      intro x hx
      exact h.notMem_dropped (Multiset.mem_Ico.mp hx).1
    have hmap : (Multiset.Ico next next').map g.slot =
        (Multiset.Ico next next').map fun x => x + (g.slot next - next) := by
      apply Multiset.map_congr rfl
      intro x hx
      rw [h.slot_of_ge (Multiset.mem_Ico.mp hx).1]
      omega
    rw [slots, hall, hmap, Multiset.map_add_right_Ico, h.slot_of_ge hn]
    congr 1 <;> omega
  have hsplit : g.slots first next' = g.slots first next + g.slots next next' := by
    rw [slots, ← Multiset.Ico_add_Ico_eq_Ico hle hn, Multiset.filter_add, Multiset.map_add]
    rfl
  rw [hsplit, add_right_comm, h.full, hslots,
    Multiset.Ico_add_Ico_eq_Ico (g.slot_mono hle) (g.slot_mono hn)]

theorem drop (h : g.Spans first next) (hle : first ≤ next) :
    (g.drop next).Spans first (next + 1) := by
  have hnext : next ∉ g.dropped := h.notMem_dropped le_rfl
  refine ⟨fun d hd => ?_, fun r hr => ?_, ?_⟩
  · rcases Finset.mem_insert.mp hd with rfl | hd
    · omega
    · have := h.dropped d hd
      omega
  · have := h.reserved r hr
    omega
  have hslots : (g.drop next).slots first (next + 1) = g.slots first next := by
    have hlast : (Multiset.Ico next (next + 1)).filter (· ∉ (g.drop next).dropped) = 0 := by
      apply Multiset.filter_eq_nil.mpr
      intro x hx
      have hx : x = next := by
        have := Multiset.mem_Ico.mp hx
        omega
      simp [Ledger.drop, hx]
    have hbefore : (Multiset.Ico first next).filter (· ∉ (g.drop next).dropped) =
        (Multiset.Ico first next).filter (· ∉ g.dropped) := by
      apply Multiset.filter_congr
      intro x hx
      have hne : x ≠ next := (Multiset.mem_Ico.mp hx).2.ne
      simp [Ledger.drop, hne]
    rw [slots, slots, ← Multiset.Ico_add_Ico_eq_Ico hle (show next ≤ next + 1 by omega),
      Multiset.filter_add, hlast, add_zero, hbefore]
    apply Multiset.map_congr rfl
    intro x hx
    exact g.slot_drop_of_le (Multiset.mem_Ico.mp (Multiset.mem_of_mem_filter hx)).2.le
  have hend : (g.drop next).slot (next + 1) = g.slot next := by
    have := h.slot_of_ge (show next ≤ next + 1 by omega)
    rw [g.slot_drop_of_lt (by omega) hnext]
    omega
  rw [hslots, hend, g.slot_drop_of_le hle]
  exact h.full

/-- Numbers are reserved after the head. -/
theorem reserve (h : g.Spans first next) (hlt : first < next) (count : ℕ) :
    (g.reserve (next - 1) ((List.range count).map fun i : ℕ => g.slot next + i)).Spans
      first next := by
  have hsame : ∀ x < next,
      (g.reserve (next - 1) ((List.range count).map fun i : ℕ => g.slot next + i)).slot x =
        g.slot x := by
    intro x hx
    exact g.slot_reserve_of_le _ (by omega)
  refine ⟨h.dropped, fun r hr => ?_, ?_⟩
  · rcases List.mem_append.mp hr with hr | hr
    · exact h.reserved r hr
    · rw [List.mem_singleton.mp hr]
      simp only
      omega
  have hslots : (g.reserve (next - 1)
      ((List.range count).map fun i : ℕ => g.slot next + i)).slots first next =
        g.slots first next := by
    apply Multiset.map_congr rfl
    intro x hx
    exact hsame x (Multiset.mem_Ico.mp (Multiset.mem_of_mem_filter hx)).2
  have hnumbers : (g.reserve (next - 1)
      ((List.range count).map fun i : ℕ => g.slot next + i)).numbers =
        g.numbers + Multiset.Ico (g.slot next) (g.slot next + count) := by
    simp only [numbers, Ledger.reserve, List.flatMap_append, ← coe_range_add]
    simp
  rw [hslots, hnumbers, hsame first hlt, g.slot_reserve_of_lt _ (by omega), ← add_assoc, h.full,
    List.length_map, List.length_range,
    Multiset.Ico_add_Ico_eq_Ico (g.slot_mono hlt.le) (by omega)]

end Spans

end Ledger

end Renumber
