import Renumber.Proofs.Bookkeeping
import Renumber.Proofs.Entry

/-! States of a numbering that follow the books of the incoming stream. -/
namespace Renumber.Numbering

/-- The books of a stream with the given head. -/
structure Led (t : ℕ) (head : BitVec 64) (l : Line) (g : Ledger) : Prop where
  start : l.start ≤ head.toNat + 1
  far : head.toNat + 2 ^ 15 ≤ 2 ^ 16 + 2 ^ 15 * t
  first : ∃ f, g.first = some f ∧ 0 ≤ f ∧ f ≤ head.toNat ∧ g.Spans f (head.toNat + 1) ∧
    0 ≤ g.slot f
  near : g.slot (head.toNat + 1) ≤ 2 ^ 16 * (t + 1)

/-- The state after `t` requests, with the books that its offsets keep. -/
structure Follows (history t : ℕ) (n : Numbering) (l : Line) (g : Ledger) : Prop where
  kept : Kept history n.offsets l g
  highest : n.unwrapper.highest = n.head
  fresh : n.head = none → n.lastOutgoing = none ∧ n.offsets = .new history ∧ g = {}
  led : ∀ head, n.head = some head → Led t head l g

variable {history t : ℕ} {n : Numbering} {l : Line} {g : Ledger} {head e : BitVec 64}

theorem Led.mono (h : Led t head l g) : Led (t + 1) head l g := by
  have hfar := h.far
  have hnear := h.near
  exact ⟨h.start, by omega, h.first, by omega⟩

theorem Led.slot_ge (h : Led t head l g) (ht : t ≤ 2 ^ 47) {k : ℤ} (hk : 0 ≤ k) :
    -2 ^ 63 ≤ g.slot k := by
  obtain ⟨f, -, h0, hf, hspans, hpos⟩ := h.first
  have hfar := h.far
  have hzero : g.slot 0 = 0 + g.shift := hspans.slot_of_le h0
  have hfirst : g.slot f = f + g.shift := hspans.slot_of_le le_rfl
  have hmono : g.slot 0 ≤ g.slot k := g.slot_mono hk
  omega

theorem follows_new (history : ℕ) : ∃ l, Follows history 0 (new history) l {} := by
  refine ⟨_, Kept.new history rfl rfl rfl, rfl, fun _ => ⟨rfl, rfl, rfl⟩, ?_⟩
  intro head hhead
  cases hhead

namespace Follows

theorem get_head (h : Follows history t n l g) (ht : t < 2 ^ 47) (hhead : n.head = some head) :
    n.offsets.get (head + 1) = .ok (BitVec.ofInt 64 l.value) ∧
      head + 1 - BitVec.ofInt 64 l.value = BitVec.ofInt 64 (g.slot (head.toNat + 1)) := by
  have hled := h.led head hhead
  have hstart := hled.start
  have hfar := hled.far
  have hnext : (head + 1).toNat = head.toNat + 1 := BitVec.toNat_add_of_lt (by simp; omega)
  have hget : l.get (head + 1).toNat = .ok l.value := by
    rw [Line.get, if_pos (by omega)]
  obtain ⟨-, hslot⟩ := h.kept.get_ok hget
  constructor
  · rw [h.kept.get (by omega) (by omega), hget]
    rfl
  · rw [hslot, hnext]
    rfl

theorem upcoming (h : Follows history t n l g) (ht : t < 2 ^ 47) (hhead : n.head = some head) :
    n.upcoming = some (BitVec.ofInt 64 (g.slot (head.toNat + 1))) := by
  obtain ⟨hget, hslot⟩ := h.get_head ht hhead
  simp only [Numbering.upcoming, hhead, Option.bind_some, value_placeHead, hget, hslot]

theorem upcoming_of_none (hhead : n.head = none) : n.upcoming = none := by
  rw [Numbering.upcoming, hhead]
  rfl

theorem toNat_upcoming (h : Follows history t n l g) (ht : t < 2 ^ 47) {next : BitVec 64}
    (hnext : n.upcoming = some next) :
    ∃ head, n.head = some head ∧ (next.toNat : ℤ) = g.slot (head.toNat + 1) ∧
      next.toNat ≤ 2 ^ 16 * (t + 1) := by
  cases hhead : n.head with
  | none =>
    rw [upcoming_of_none hhead] at hnext
    cases hnext
  | some head =>
    obtain rfl := Option.some.inj ((h.upcoming ht hhead).symm.trans hnext)
    have hled := h.led head hhead
    obtain ⟨f, -, h0, hf, -, hpos⟩ := hled.first
    have hmono : g.slot f ≤ g.slot (head.toNat + 1) := g.slot_mono (by omega)
    have hnear := hled.near
    have hread : ((BitVec.ofInt 64 (g.slot (head.toNat + 1))).toNat : ℤ) =
        g.slot (head.toNat + 1) := Serial.toNat_ofInt_of_nonneg (by omega) (by omega)
    exact ⟨head, rfl, hread, by omega⟩

theorem nextOutgoing (h : Follows history t n l g) (ht : t < 2 ^ 47) :
    n.nextOutgoing.value = .ok n.upcoming := by
  rw [value_nextOutgoing]
  cases hhead : n.head with
  | none => simp [(h.fresh hhead).1, upcoming_of_none hhead]
  | some head =>
    obtain ⟨hget, hslot⟩ := h.get_head ht hhead
    simp only [hget, Except.map, hslot, h.upcoming ht hhead]

theorem slot_first (h : Follows history t n l g) {f : ℤ} (hf : g.first = some f) :
    g.slot f = f + g.shift := by
  cases hhead : n.head with
  | none =>
    rw [(h.fresh hhead).2.2] at hf
    cases hf
  | some head =>
    obtain ⟨f', hfirst, -, -, hspans, -⟩ := (h.led head hhead).first
    obtain rfl := Option.some.inj (hf.symm.trans hfirst)
    exact hspans.slot_of_le le_rfl

theorem source (h : Follows history t n l g) (ssrc : Option (BitVec 32)) :
    Follows history t { n with ssrc := ssrc } l g := ⟨h.kept, h.highest, h.fresh, h.led⟩

theorem stay (h : Follows history t n l g) {n' : Numbering} (hoff : n'.offsets = n.offsets)
    (hu : n'.unwrapper.highest = n.unwrapper.highest) (hhead : n'.head = n.head)
    (hlast : n'.lastOutgoing = n.lastOutgoing) : Follows history (t + 1) n' l g := by
  constructor
  · rw [hoff]
    exact h.kept
  · rw [hu, hhead]
    exact h.highest
  · rw [hhead, hlast, hoff]
    exact h.fresh
  · rw [hhead]
    intro head hh
    exact (h.led head hh).mono

/-- A packet behind the head is placed by what its number reads on the line. -/
theorem place_late (h : Follows history t n l g) (ht : t < 2 ^ 47) (p : Packet)
    (hhead : n.head = some head) (hlt : e < head) :
    (n.place p e).value = (n.placeLate p.ssrc p.sequenceNumber e).value ∧
      n.offsets.get e = (l.get e.toNat).map (BitVec.ofInt 64) := by
  have hled := h.led head hhead
  have hstart := hled.start
  have hfar := hled.far
  have hne : n.head ≠ some e := by
    rw [hhead, ne_eq, Option.some.injEq]
    exact (BitVec.ne_of_lt hlt).symm
  have hlate : n.head.any (e < ·) := by
    rw [hhead, Option.any_some, decide_eq_true_iff]
    exact hlt
  rw [BitVec.lt_def] at hlt
  constructor
  · rw [value_place, if_neg hne, if_pos hlate]
  · exact h.kept.get (by omega) (by omega)

/-- A repeated or late packet changes no books. It goes to its slot, or is refused as a repeat, as
left out or as too old. -/
theorem place_behind (h : Follows history t n l g) (ht : t < 2 ^ 47) (p : Packet)
    (hhead : n.head = some head) (he : e.toNat ≤ head.toNat) :
    ∃ stats, (n.place p e).value.1 = { n with stats := stats } ∧
      (∀ refusal, (n.place p e).value.2 = .error refusal →
        refusal = .duplicate e ∨ refusal = .excluded e ∨ refusal = .tooOld e) ∧
      ∀ spot, (n.place p e).value.2 = .ok spot → spot.incoming = e ∧ e.toNat < head.toNat ∧
        (e.toNat : ℤ) ∉ g.dropped ∧ spot.outgoing = BitVec.ofInt 64 (g.slot e.toNat) := by
  by_cases heq : head = e
  · rw [value_place, if_pos (by rw [hhead, heq])]
    refine ⟨_, rfl, ?_, ?_⟩
    · intro refusal hrefusal
      cases hrefusal
      exact Or.inl rfl
    · intro spot hspot
      cases hspot
  have hlt : e.toNat < head.toNat := by
    have := BitVec.toNat_ne.mp heq
    omega
  obtain ⟨hplace, hread⟩ := h.place_late ht p hhead hlt
  rw [hplace, value_placeLate, hread]
  cases hget : l.get e.toNat with
  | ok v =>
    obtain ⟨hmem, hslot⟩ := h.kept.get_ok hget
    refine ⟨_, rfl, ?_, ?_⟩
    · intro refusal hrefusal
      cases hrefusal
    · intro spot hspot
      cases hspot
      exact ⟨rfl, hlt, hmem, hslot⟩
  | error error =>
    rcases Line.get_eq_error hget with rfl | rfl
    · refine ⟨_, rfl, ?_, ?_⟩
      · intro refusal hrefusal
        cases hrefusal
        exact Or.inr (Or.inl rfl)
      · intro spot hspot
        cases hspot
    · refine ⟨_, rfl, ?_, ?_⟩
      · intro refusal hrefusal
        cases hrefusal
        exact Or.inr (Or.inr rfl)
      · intro spot hspot
        cases hspot

end Follows

/-- The packet takes the lead as number `e`: it is left out, or goes to its slot. -/
structure Leads (history t : ℕ) (n : Numbering) (p : Packet) (e : BitVec 64) (g : Ledger) :
    Prop where
  head : (n.place p e).value.1.head = some e
  padding : p.isPaddingOnly = true → (n.place p e).value.2 = .error .paddingDropped ∧
    ∃ l, Follows history t (n.place p e).value.1 l (g.drop e.toNat)
  content : p.isPaddingOnly = false →
    (n.place p e).value.2 = .ok ⟨e, BitVec.ofInt 64 (g.slot e.toNat)⟩ ∧
      (e.toNat : ℤ) ∉ g.dropped ∧ ∃ l, Follows history t (n.place p e).value.1 l g

/-- A packet takes the lead if its number is the first one or ahead of the head. -/
theorem leads (hkept : Kept history n.offsets l g) (p : Packet) {f : ℤ}
    (hhead : ∀ head, n.head = some head → head.toNat < e.toNat)
    (hu : n.unwrapper.highest = some e) (hl : l.start ≤ e.toNat) (ht : t ≤ 2 ^ 47)
    (hfar : e.toNat + 2 ^ 15 ≤ 2 ^ 16 + 2 ^ 15 * t) (hfirst : g.first = some f) (h0 : 0 ≤ f)
    (hf : f ≤ e.toNat) (hspans : g.Spans f e.toNat) (hpos : 0 ≤ g.slot f)
    (hnear : g.slot e.toNat + 1 ≤ 2 ^ 16 * (t + 1)) : Leads history t n p e g := by
  have hne : n.head ≠ some e := by
    intro he
    have := hhead e he
    omega
  have hnlt : ¬n.head.any (e < ·) := by
    rw [Option.any_eq_true]
    rintro ⟨head, hh, hlt⟩
    have := hhead head hh
    rw [decide_eq_true_iff, BitVec.lt_def] at hlt
    omega
  have hnext : g.slot (e.toNat + 1) = g.slot e.toNat + 1 := by
    have := hspans.slot_of_ge (show (e.toNat : ℤ) ≤ e.toNat + 1 by omega)
    omega
  have hmem : (e.toNat : ℤ) ∉ g.dropped := hspans.notMem_dropped le_rfl
  have hplace := value_place n p e
  rw [if_neg hne, if_neg hnlt] at hplace
  by_cases hp : p.isPaddingOnly = true
  · obtain ⟨hexclude, hkept'⟩ := hkept.exclude hspans hl (by omega)
    rw [if_pos hp, value_dropPadding] at hplace
    simp only [hexclude] at hplace
    constructor
    · rw [hplace]
    · intro _
      rw [hplace]
      refine ⟨rfl, _, hkept', hu, ?_, ?_⟩
      · intro hnone
        cases hnone
      · intro head hh
        cases hh
        refine ⟨?_, hfar, ⟨f, hfirst, h0, hf, hspans.drop hf, ?_⟩, ?_⟩
        · rw [Line.advance_start]
        · rwa [g.slot_drop_of_le hf]
        · rw [g.slot_drop_of_lt (by omega) hmem]
          omega
    · intro hcontent
      rw [hp] at hcontent
      cases hcontent
  · have hget : l.get e.toNat = .ok l.value := by
      rw [Line.get, if_pos hl]
    obtain ⟨-, hslot⟩ := hkept.get_ok hget
    rw [if_neg hp, value_placeHead, hkept.get (by omega) (by omega), hget] at hplace
    simp only [Except.map, hslot] at hplace
    constructor
    · rw [hplace]
    · intro hpadding
      exact absurd hpadding hp
    · intro _
      rw [hplace]
      refine ⟨rfl, hmem, l, hkept, hu, ?_, ?_⟩
      · intro hnone
        cases hnone
      · intro head hh
        cases hh
        have hspans' : g.Spans f (e.toNat + 1) := hspans.advance hf (by omega)
        exact ⟨by omega, hfar, ⟨f, hfirst, h0, hf, hspans', hpos⟩, by omega⟩

namespace Follows

theorem reserve_of_none (h : Follows history t n l g) (ht : t < 2 ^ 47) (hhead : n.head = none)
    (count : BitVec 16) : (n.reserve count).value = (n, .ok []) := by
  rw [value_reserve, h.nextOutgoing ht, upcoming_of_none hhead]

theorem reserve (h : Follows history t n l g) (ht : t < 2 ^ 47) (hhead : n.head = some head)
    (count : BitVec 16) :
    ∃ stats lastOutgoing l',
      (n.reserve count).value = ({ n with
        offsets := l'.wrap
        lastOutgoing := lastOutgoing
        stats := stats }, .ok ((List.range count.toNat).map fun i : ℕ =>
          BitVec.ofInt 64 (g.slot (head.toNat + 1) + i))) ∧
      l'.start ≤ (head.toNat + 1 : ℤ) ∧
      ∀ ns : List ℤ, ns.length = count.toNat →
        Kept history l'.wrap l' (g.reserve head.toNat ns) := by
  have hled := h.led head hhead
  have hstart := hled.start
  have hfar := hled.far
  have hnext : (head + 1).toNat = head.toNat + 1 := BitVec.toNat_add_of_lt (by simp; omega)
  rw [value_reserve, h.nextOutgoing ht, h.upcoming ht hhead]
  simp only [BitVec.ofInt_add, BitVec.ofInt_natCast]
  by_cases hc : count = 0
  · subst hc
    refine ⟨n.stats, n.lastOutgoing, l, ?_, hstart, ?_⟩
    · rw [← h.kept.offsets]
      rfl
    · intro ns hns
      rw [← h.kept.offsets]
      refine h.kept.congr rfl ?_
      intro x
      rcases le_or_gt x head.toNat with hx | hx
      · exact g.slot_reserve_of_le ns hx
      · rw [g.slot_reserve_of_lt ns hx, hns]
        simp
  · obtain ⟨hlower, hkept⟩ := h.kept.lowerFrom (x := head + 1) (by omega) (by omega)
      (count.setWidth 64)
    have hhere : ((head.toNat + 1 : ℕ) : ℤ) - 1 = head.toNat := by omega
    rw [hnext, hhere] at hkept
    simp only [if_neg hc, hhead, hlower]
    refine ⟨_, _, _, rfl, ?_, ?_⟩
    · rw [Line.advance_start]
      omega
    · intro ns hns
      rw [hnext]
      apply hkept ns
      rw [hns, toNat_widen]

theorem reserved (h : Follows history t n l g) (ht : t < 2 ^ 47) (hhead : n.head = some head)
    (count : BitVec 16) :
    Exchange.reserved ⟨n, .inject count⟩ = (List.range count.toNat).map fun i : ℕ =>
      BitVec.ofInt 64 (g.slot (head.toNat + 1) + i) := by
  obtain ⟨stats, lastOutgoing, l', hres, -⟩ := h.reserve ht hhead count
  rw [Exchange.reserved_inject, hres]
  rfl

/-- A reservation is entered with the head and the slots after it. -/
theorem burst (h : Follows history t n l g) (ht : t < 2 ^ 47) (hhead : n.head = some head)
    (count : BitVec 16) : Exchange.burst ⟨n, .inject count⟩ = some ((head.toNat : ℤ),
      (List.range count.toNat).map fun i : ℕ => g.slot (head.toNat + 1) + i) := by
  have hled := h.led head hhead
  obtain ⟨f, -, -, hf, -, hpos⟩ := hled.first
  have hmono : g.slot f ≤ g.slot (head.toNat + 1) := g.slot_mono (by omega)
  have hnear := hled.near
  have hnumbers : ((Exchange.reserved ⟨n, .inject count⟩).map fun m => (m.toNat : ℤ)) =
      (List.range count.toNat).map fun i : ℕ => g.slot (head.toNat + 1) + i := by
    rw [h.reserved ht hhead, List.map_map]
    apply List.map_congr_left
    intro i hi
    have hi := List.mem_range.mp hi
    exact Serial.toNat_ofInt_of_nonneg (by omega) (by omega)
  simp only [Exchange.burst, hhead, hnumbers]

end Follows

end Renumber.Numbering
