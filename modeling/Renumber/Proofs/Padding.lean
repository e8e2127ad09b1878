import Renumber.Proofs.Exclusion
import Renumber.Proofs.Restart

/-! Padding of the forwarder's own, reserved in parts, and beside dropped padding at the head. -/
namespace Renumber.Numbering

variable {n : Numbering} {head : BitVec 64} {p : Packet}

/-- The open range of the offsets reaches from behind the head on, if not from before it. -/
structure Primed (n : Numbering) (head : BitVec 64) : Prop where
  opened : Serial.isOnOrAfter (head + 1) n.offsets.start = true
  head : n.head = some head

/-- The state with that many numbers reserved after the head. -/
def padded (n : Numbering) (head : BitVec 64) (count : ℕ) : Numbering :=
  if count = 0 then n
  else { n with
    offsets := n.offsets.advance (head + 1) (head + 1) (n.offsets.value - BitVec.ofNat 64 count)
    lastOutgoing := some (head + 1 - n.offsets.value + (BitVec.ofNat 64 count - 1))
    stats := { n.stats with
      paddingInjected := n.stats.paddingInjected + UInt64.ofNat count } }

/-- The numbers that are free after the head, as subscribers see them. -/
def freeAfter (n : Numbering) (head : BitVec 64) (count : ℕ) : List (BitVec 16) :=
  (List.range count).map fun i =>
    (head + 1 - n.offsets.value + BitVec.ofNat 64 i).setWidth 16

/-- The state in which the number after the head is left out. -/
def passedOver (n : Numbering) (head : BitVec 64) (p : Packet) : Numbering :=
  { n with
    offsets := n.offsets.advance (head + 1) (head + 1 + 1) (n.offsets.value + 1)
    unwrapper := (n.unwrapper.extend p.sequenceNumber).2
    ssrc := some p.ssrc
    head := some (head + 1)
    stats := { n.stats with paddingDropped := n.stats.paddingDropped + 1 } }

theorem padded_of_ne_zero (n : Numbering) (head : BitVec 64) {count : ℕ} (hcount : count ≠ 0) :
    n.padded head count = { n with
      offsets := n.offsets.advance (head + 1) (head + 1) (n.offsets.value - BitVec.ofNat 64 count)
      lastOutgoing := some (head + 1 - n.offsets.value + (BitVec.ofNat 64 count - 1))
      stats := { n.stats with
        paddingInjected := n.stats.paddingInjected + UInt64.ofNat count } } := if_neg hcount

theorem padded_value (n : Numbering) (head : BitVec 64) (count : ℕ) :
    (n.padded head count).offsets.value = n.offsets.value - BitVec.ofNat 64 count := by
  by_cases hcount : count = 0
  · subst hcount
    simp [padded]
  · rw [padded_of_ne_zero n head hcount]
    exact History.advance_value ..

theorem padded_due (n : Numbering) (head : BitVec 64) (count : ℕ) (p : Packet) :
    (n.padded head count).due p = n.due p := by
  unfold padded due
  split <;> rfl

theorem padded_unwrapper (n : Numbering) (head : BitVec 64) (count : ℕ) :
    (n.padded head count).unwrapper = n.unwrapper := by
  unfold padded
  split <;> rfl

theorem padded_padded (n : Numbering) (head : BitVec 64) (count more : ℕ) :
    (n.padded head count).padded head more = n.padded head (count + more) := by
  by_cases hmore : more = 0
  · subst hmore
    rfl
  by_cases hcount : count = 0
  · subst hcount
    rw [Nat.zero_add]
    rfl
  have hsum : count + more ≠ 0 := by omega
  have hvalue := padded_value n head count
  rw [padded_of_ne_zero _ head hmore, hvalue, padded_of_ne_zero n head hsum,
    padded_of_ne_zero n head hcount]
  simp only [History.advance_advance]
  congr 1
  · rw [BitVec.ofNat_add, BitVec.sub_sub]
  · rw [BitVec.ofNat_add]
    congr 1
    ring
  · rw [UInt64.ofNat_add, UInt64.add_assoc]

theorem freeAfter_add (n : Numbering) (head : BitVec 64) (count more : ℕ) :
    n.freeAfter head count ++ (n.padded head count).freeAfter head more =
      n.freeAfter head (count + more) := by
  unfold freeAfter
  rw [padded_value, List.range_add, List.map_append, List.map_map]
  congr 1
  apply List.map_congr_left
  intro i hi
  rw [Function.comp_apply, BitVec.ofNat_add]
  congr 1
  ring

theorem padded_passedOver (n : Numbering) (head : BitVec 64) (p : Packet) (count : ℕ) :
    (n.padded head count).passedOver head p = (n.passedOver head p).padded (head + 1) count := by
  by_cases hcount : count = 0
  · subst hcount
    rfl
  rw [padded_of_ne_zero n head hcount, padded_of_ne_zero _ (head + 1) hcount]
  simp only [passedOver, History.advance_value, History.advance_advance, add_sub_add_right_eq_sub]
  congr 2
  ring

theorem freeAfter_passedOver (n : Numbering) (head : BitVec 64) (p : Packet) (count : ℕ) :
    (n.passedOver head p).freeAfter (head + 1) count = n.freeAfter head count := by
  have hvalue : (n.passedOver head p).offsets.value = n.offsets.value + 1 :=
    History.advance_value ..
  unfold freeAfter
  rw [hvalue, add_sub_add_right_eq_sub]

namespace Primed

theorem padded (h : n.Primed head) (count : ℕ) : (n.padded head count).Primed head := by
  by_cases hcount : count = 0
  · subst hcount
    exact h
  · rw [padded_of_ne_zero n head hcount]
    refine ⟨?_, h.head⟩
    rw [History.advance_start]
    exact Serial.isOnOrAfter_self (by decide) _

theorem passedOver (n : Numbering) (head : BitVec 64) (p : Packet) :
    (n.passedOver head p).Primed (head + 1) := by
  refine ⟨?_, rfl⟩
  rw [Numbering.passedOver, History.advance_start]
  exact Serial.isOnOrAfter_self (by decide) _

theorem nextOutgoing (h : n.Primed head) :
    n.nextOutgoing.value = .ok (some (head + 1 - n.offsets.value)) := by
  rw [value_nextOutgoing, h.head]
  simp only [History.get_of_isOnOrAfter h.opened]
  rfl

theorem injectPadding (h : n.Primed head) (count : BitVec 16) :
    (n.injectPadding count).value =
      (n.padded head count.toNat, .ok (n.freeAfter head count.toNat)) := by
  have hwide : BitVec.ofNat 64 count.toNat = count.setWidth 64 := BitVec.ofNat_toNat 64 count
  have hprecedes : Serial.precedes (head + 1) n.offsets.start = false := by
    rw [Serial.precedes_eq_not, h.opened]
    rfl
  have hlower : (n.offsets.lowerFrom (head + 1) (count.setWidth 64)).value =
      .ok (n.offsets.advance (head + 1) (head + 1) (n.offsets.value - count.setWidth 64)) := by
    rw [History.value_lowerFrom, hprecedes]
    rfl
  rw [Numbering.injectPadding, Traced.value_map, value_reserve, h.nextOutgoing]
  by_cases hcount : count = 0
  · subst hcount
    rfl
  · have hne : count.toNat ≠ 0 := fun hzero => hcount (BitVec.eq_of_toNat_eq hzero)
    simp only [if_neg hcount, h.head, hlower]
    rw [padded_of_ne_zero n head hne, hwide]
    simp [freeAfter, Function.comp_def, h.head]

/-- Padding that arrives right after the head is left out. -/
theorem forward (h : n.Primed head) (hlt : head < head + 1) (hdue : n.due p = false)
    (hpadding : p.isPaddingOnly = true)
    (hextended : (n.unwrapper.extend p.sequenceNumber).1 = some (head + 1)) :
    (n.forward p).value = (n.passedOver head p, .error .paddingDropped) := by
  have hextend : n.unwrapper.extend p.sequenceNumber =
      (some (head + 1), (n.unwrapper.extend p.sequenceNumber).2) := Prod.ext hextended rfl
  have hne : some head ≠ some (head + 1) := by
    intro heq
    exact BitVec.ne_of_lt hlt (Option.some.inj heq)
  have hahead : ¬ (some head).any (head + 1 < ·) := by
    rw [Option.any_some, decide_eq_true_eq, BitVec.not_lt]
    exact BitVec.le_of_lt hlt
  have hdistance : Serial.distance (head + 1 + 1) (head + 1) = 1 := by
    rw [Serial.distance, BitVec.add_comm, BitVec.add_sub_cancel]
  have hexclude : (n.offsets.exclude (head + 1) (head + 1 + 1)).value =
      .ok (n.offsets.advance (head + 1) (head + 1 + 1) (n.offsets.value + 1)) := by
    rw [History.value_exclude, hdistance, Serial.precedes_eq_not, h.opened]
    rfl
  rw [Numbering.forward, Traced.value_map, value_receive_of_not_due hdue, hextend]
  simp only [value_place, h.head, if_neg hne, if_neg hahead, if_pos hpadding, value_dropPadding,
    hexclude]
  rfl

end Primed

/-- A numbering that has seen a packet has a head, and no change of its offsets lies beyond it. -/
theorem Follows.primed {history t : ℕ} {l : Line} {g : Ledger} (h : Follows history t n l g)
    (ht : t < 2 ^ 47) (hhead : n.head = some head) : n.Primed head ∧ head < head + 1 := by
  have hled := h.led head hhead
  have hstart := hled.start
  have hfar := hled.far
  have hnext : (head + 1).toNat = head.toNat + 1 := BitVec.toNat_add_of_lt (by simp; omega)
  have hnot := h.kept.not_precedes (x := head + 1) (by omega) (by omega)
  rw [Serial.precedes_eq_not, Bool.not_eq_true', Bool.not_eq_false] at hnot
  refine ⟨⟨hnot, hhead⟩, ?_⟩
  rw [BitVec.lt_def]
  omega

theorem value_serveAll_cons (n : Numbering) (request : Request) (rest : List Request) :
    (n.serveAll (request :: rest)).value =
      (((n.serve request).value.1.serveAll rest).value.1,
        (n.serve request).value.2 :: ((n.serve request).value.1.serveAll rest).value.2) := rfl

/-- Reservations one after the other take the numbers that one reservation takes. -/
theorem Primed.serveAll_inject (h : n.Primed head) (counts : List (BitVec 16)) :
    (n.serveAll (counts.map .inject)).value.1 = n.padded head (counts.map BitVec.toNat).sum ∧
      ∃ lists : List (List (BitVec 16)),
        (n.serveAll (counts.map .inject)).value.2 = lists.map (fun ns => .injected (.ok ns)) ∧
          lists.flatten = n.freeAfter head (counts.map BitVec.toNat).sum := by
  induction counts generalizing n with
  | nil => exact ⟨rfl, [], rfl, rfl⟩
  | cons count rest ih =>
    obtain ⟨hafter, lists, hreplies, hlists⟩ := ih (h.padded count.toNat)
    rw [List.map_cons, List.map_cons, List.sum_cons, value_serveAll_cons, serve, Traced.value_map,
      h.injectPadding]
    refine ⟨?_, n.freeAfter head count.toNat :: lists, ?_, ?_⟩
    · rw [hafter, padded_padded]
    · rw [hreplies, List.map_cons]
    · rw [List.flatten_cons, hlists, freeAfter_add]

/-- Padding reserved before and after the number after the head is left out. -/
theorem Primed.inject_forward (h : n.Primed head) (hlt : head < head + 1) (hdue : n.due p = false)
    (hpadding : p.isPaddingOnly = true)
    (hextended : Exchange.extended ⟨n, .forward p⟩ = some (head + 1)) (count : BitVec 16) :
    ∃ n' ns,
      (n.serveAll [.inject count, .forward p]).value =
          (n', [.injected (.ok ns), .forwarded (.error .paddingDropped)]) ∧
        (n.serveAll [.forward p, .inject count]).value =
          (n', [.forwarded (.error .paddingDropped), .injected (.ok ns)]) := by
  rw [Exchange.extended_forward, facing_of_not_due hdue] at hextended
  have hforward := h.forward hlt hdue hpadding hextended
  have hpadded := (h.padded count.toNat).forward hlt ((padded_due n head _ p).trans hdue) hpadding
    (by rwa [padded_unwrapper])
  have hpassed := (passedOver n head p).injectPadding count
  rw [padded_passedOver] at hpadded
  rw [freeAfter_passedOver] at hpassed
  refine ⟨(n.passedOver head p).padded (head + 1) count.toNat, n.freeAfter head count.toNat, ?_, ?_⟩
  · simp only [value_serveAll_cons, serve, Traced.value_map, h.injectPadding, hpadded]
    rfl
  · simp only [value_serveAll_cons, serve, Traced.value_map, hforward, hpassed]
    rfl

/-- A numbering that has seen a packet hands out the same numbers for padding in parts and at once,
and is left in the same state. It is all the same whether padding that arrives right after the head
is left out before or after numbers are reserved. All of it is answered if the ranges of a full
history can be counted. -/
theorem reservations_compose {history : ℕ} (hhistory : history + 1 < UInt64.size)
    (requests : List Request) (hlen : requests.length < 2 ^ 47)
    (hseen : ∃ q, .forward q ∈ requests) :
    let n := (new history).after requests
    (∀ later, ((new history).serveAll (requests ++ later)).overflow = false) ∧
      (∀ counts : List (BitVec 16), (counts.map BitVec.toNat).sum ≤ 65535 →
        let whole := n.injectPadding (.ofNat 16 (counts.map BitVec.toNat).sum)
        ∃ lists : List (List (BitVec 16)),
          (n.serveAll (counts.map .inject)).value =
              (whole.value.1, lists.map fun ns => .injected (.ok ns)) ∧
            whole.value.2 = .ok lists.flatten) ∧
      (n.injectPadding 0).value = (n, .ok []) ∧
      ∀ (head : BitVec 64) (p : Packet) (count : BitVec 16), n.head = some head →
        n.due p = false → p.isPaddingOnly = true →
        Exchange.extended ⟨n, .forward p⟩ = some (head + 1) →
        ∃ n' ns,
          (n.serveAll [.inject count, .forward p]).value =
              (n', [.injected (.ok ns), .forwarded (.error .paddingDropped)]) ∧
            (n.serveAll [.forward p, .inject count]).value =
              (n', [.forwarded (.error .paddingDropped), .injected (.ok ns)]) := by
  intro n
  obtain ⟨l, g, hfollows⟩ := follows_run history requests hlen.le
  obtain ⟨head, hhead⟩ : ∃ head, n.head = some head := by
    rw [← Option.ne_none_iff_exists', ne_eq, head_eq_none_iff history requests hlen.le]
    exact fun hunseen => hseen.elim hunseen
  obtain ⟨hprimed, -⟩ := hfollows.primed hlen hhead
  refine ⟨fun later => overflow_serveAll (History.new_capacity_lt hhistory) (requests ++ later),
    fun counts hsum => ?_, hprimed.injectPadding 0, ?_⟩
  · obtain ⟨hafter, lists, hreplies, hlists⟩ := hprimed.serveAll_inject counts
    have htotal : (BitVec.ofNat 16 (counts.map BitVec.toNat).sum).toNat =
        (counts.map BitVec.toNat).sum := by
      rw [BitVec.toNat_ofNat]
      omega
    have hwhole := hprimed.injectPadding (.ofNat 16 (counts.map BitVec.toNat).sum)
    rw [htotal] at hwhole
    refine ⟨lists, ?_, ?_⟩
    · rw [hwhole, ← hreplies, ← hafter]
    · rw [hwhole, hlists]
  · intro head p count hhead hdue hpadding hextended
    obtain ⟨hprimed, hlt⟩ := hfollows.primed hlen hhead
    exact hprimed.inject_forward hlt hdue hpadding hextended count

/-- One packet is lost, and the numbers that are reserved next start again from zero. -/
private def aroundWrap : List Request :=
  [.forward ⟨1, 65533, 0, [7], 0⟩, .forward ⟨1, 65535, 0, [7], 0⟩, .inject 2]

theorem reservations_compose_aroundWrap :
    (((new 2).after aroundWrap).serveAll [.inject 2, .inject 0, .inject 3]).value.1 =
        (((new 2).after aroundWrap).injectPadding 5).value.1 ∧
      (∃ lists : List (List (BitVec 16)),
        (((new 2).after aroundWrap).serveAll [.inject 2, .inject 0, .inject 3]).value.2 =
            lists.map (fun ns => .injected (.ok ns)) ∧
          lists.flatten = [2, 3, 4, 5, 6]) ∧
      (((new 2).after aroundWrap).serveAll [.inject 2, .forward ⟨1, 0, 0, [], 0⟩]).value.1 =
        (((new 2).after aroundWrap).serveAll [.forward ⟨1, 0, 0, [], 0⟩, .inject 2]).value.1 := by
  have hlen : aroundWrap.length < 2 ^ 47 := by decide
  have hseen : ∃ q, .forward q ∈ aroundWrap := ⟨⟨1, 65533, 0, [7], 0⟩, by decide⟩
  have hhistory : 2 + 1 < UInt64.size := by decide
  obtain ⟨-, hparts, -, htrade⟩ := reservations_compose hhistory aroundWrap hlen hseen
  obtain ⟨lists, hserved, hlists⟩ := hparts [2, 0, 3] (by decide)
  have htotal : BitVec.ofNat 16 (([2, 0, 3] : List (BitVec 16)).map BitVec.toNat).sum = 5 := by
    decide
  have hnumbers : (((new 2).after aroundWrap).injectPadding 5).value.2 = .ok [2, 3, 4, 5, 6] := by
    decide
  obtain ⟨n', ns, hbefore, hafter⟩ := htrade 65535 ⟨1, 0, 0, [], 0⟩ 2 (by decide) (by decide)
    (by decide) (by decide)
  simp only [List.map_cons, List.map_nil] at hserved
  rw [htotal] at hlists
  rw [hnumbers] at hlists
  rw [hserved, hbefore, hafter]
  exact ⟨rfl, ⟨lists, rfl, (Except.ok.inj hlists).symm⟩, rfl⟩

/-- With the largest history no list is left to append to. -/
theorem reservations_compose_overflow :
    ((new (UInt64.size - 1)).serveAll
      [.forward ⟨1, 10, 0, [1], 0⟩, .inject 1, .inject 1]).outcome.isNone := by
  decide

end Renumber.Numbering
