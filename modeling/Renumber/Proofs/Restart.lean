import Renumber.Proofs.Overflow
import Renumber.Proofs.Raise
import Renumber.Proofs.Steps

/-! After a restart a numbering is a new one whose outgoing numbers are moved on to where the old
stream ended. -/
namespace Renumber.Numbering

variable {history t : ℕ} {n : Numbering} {l : Line} {g : Ledger}

theorem reserve_head (n : Numbering) (count : BitVec 16) :
    (n.reserve count).value.1.head = n.head := by
  rw [value_reserve]
  split
  · rfl
  · rfl
  split
  · rfl
  simp only
  split <;> rfl

theorem Follows.receive_head_ne_none (h : Follows history t n l g) (ht : t < 2 ^ 47) (p : Packet) :
    (n.receive p).value.1.head ≠ none := by
  cases hdue : n.due p with
  | true =>
    rw [value_receive_of_due hdue, h.nextOutgoing ht]
    exact place_head_ne_none _ p _
  | false =>
    rw [value_receive_of_not_due hdue]
    cases hhead : n.head with
    | none =>
      rw [Unwrapper.extend_of_none (h.highest.trans hhead)]
      exact place_head_ne_none _ p _
    | some head =>
      rcases n.unwrapper.extend p.sequenceNumber with ⟨_ | e, unwrapper⟩
      · exact Option.some_ne_none head
      · exact place_head_ne_none _ p e

/-- There is a head once there was a packet. -/
theorem head_eq_none_iff (history : ℕ) (requests : List Request) (hlen : requests.length ≤ 2 ^ 47) :
    ((new history).after requests).head = none ↔ ∀ q, .forward q ∉ requests := by
  induction requests using List.reverseRecOn with
  | nil => exact ⟨fun _ q => List.not_mem_nil, fun _ => rfl⟩
  | append_singleton rest request ih =>
    rw [List.length_append, List.length_singleton] at hlen
    obtain ⟨l, g, h⟩ := follows_run history rest (by omega)
    rw [after_concat]
    cases request with
    | forward p =>
      have hhead := h.receive_head_ne_none (by omega) p
      exact ⟨fun hnone => absurd hnone hhead, fun hno => absurd (by simp) (hno p)⟩
    | inject count =>
      rw [Exchange.after_inject, reserve_head, ih (by omega)]
      simp
    | restart =>
      rw [Exchange.after_restart, ih (by omega)]
      simp

theorem Follows.upcoming_eq_none_iff (h : Follows history t n l g) (ht : t < 2 ^ 47) :
    n.upcoming = none ↔ n.head = none := by
  cases hhead : n.head with
  | none => simp [Numbering.upcoming, hhead]
  | some head => simp [h.upcoming ht hhead]

def ahead (n : Numbering) (p : Packet) : BitVec 64 :=
  (n.upcoming.map (· - p.sequenceNumber.setWidth 64)).getD 0

theorem setWidth_ahead (n : Numbering) (p : Packet) : (n.ahead p).setWidth 16 =
    (n.upcoming.map fun next => next.setWidth 16 - p.sequenceNumber).getD 0 := by
  cases hup : n.upcoming with
  | none => simp [ahead, hup]
  | some next =>
    simp only [ahead, hup, Option.map_some, Option.getD_some]
    have hsum := BitVec.setWidth_add (next - p.sequenceNumber.setWidth 64)
      (p.sequenceNumber.setWidth 64) (show 16 ≤ 64 by decide)
    rw [BitVec.sub_add_cancel, BitVec.setWidth_setWidth_of_le _ (by decide),
      BitVec.setWidth_eq] at hsum
    rw [hsum, BitVec.add_sub_cancel]

theorem value_receive_new (history : ℕ) (p : Packet) :
    ((new history).receive p).value = (place { new history with
      ssrc := some p.ssrc
      unwrapper := ⟨some (p.sequenceNumber.setWidth 64)⟩ } p
      (p.sequenceNumber.setWidth 64)).value := by
  rw [value_receive_of_not_due rfl]
  rfl

/-- The packet that starts the incoming numbers anew meets the same answer as on a new numbering,
and the two go on alike. -/
theorem Follows.receive_of_due (h : Follows history t n l g) (ht : t < 2 ^ 47) {p : Packet}
    (hdue : n.due p = true) :
    Lags (n.ahead p) (n.receive p).value.1 ((new history).receive p).value.1 ∧
      (n.receive p).value.2 =
        ((new history).receive p).value.2.map (Placement.raise (n.ahead p)) := by
  have hcap : n.offsets.capacity = max history 1 := by
    rw [h.kept.offsets]
    exact h.kept.capacity
  have hoffsets : History.new history = (n.offsets.reset
      ((n.upcoming.map (p.sequenceNumber.setWidth 64 - ·)).getD 0)).raise (n.ahead p) := by
    have hzero : (n.upcoming.map (p.sequenceNumber.setWidth 64 - ·)).getD 0 + n.ahead p = 0 := by
      unfold ahead
      cases n.upcoming with
      | none => rfl
      | some next =>
        simp only [Option.map_some, Option.getD_some]
        grind
    rw [← History.reset_raise, hzero]
    simp only [History.new, History.reset, History.raise, hcap]
  rw [value_receive_of_due hdue, h.nextOutgoing ht, value_receive_new]
  have hlags : Lags (n.ahead p) { n with
        offsets := n.offsets.reset ((n.upcoming.map (p.sequenceNumber.setWidth 64 - ·)).getD 0)
        unwrapper := ⟨some (p.sequenceNumber.setWidth 64)⟩
        ssrc := some p.ssrc
        head := none
        restartPending := false
        stats := { n.stats with restarts := n.stats.restarts + 1 } } { new history with
        ssrc := some p.ssrc
        unwrapper := ⟨some (p.sequenceNumber.setWidth 64)⟩ } :=
    ⟨hoffsets, rfl, rfl, rfl, rfl⟩
  exact hlags.place p (p.sequenceNumber.setWidth 64)

theorem receive_new (history : ℕ) {p : Packet} (hp : p.isPaddingOnly = false) :
    ((new history).receive p).value.2 =
      .ok ⟨p.sequenceNumber.setWidth 64, p.sequenceNumber.setWidth 64⟩ := by
  have hon : Serial.isOnOrAfter (p.sequenceNumber.setWidth 64) (0 : BitVec 64) := by
    rw [Serial.isOnOrAfter_iff_toNat (by decide), Serial.distance,
      show p.sequenceNumber.setWidth 64 - (0 : BitVec 64) = p.sequenceNumber.setWidth 64 from
        BitVec.sub_zero _, toNat_widen]
    omega
  have hget := History.get_of_isOnOrAfter (h := (new history).offsets) hon
  rw [value_receive_new, value_place, if_neg (by simp [new]), if_neg (by simp [new]), hp,
    if_neg Bool.false_ne_true, value_placeHead]
  simp only [hget]
  exact congrArg (fun o => Except.ok (Placement.mk _ o)) (BitVec.sub_zero _)

theorem Follows.reply_first (h : Follows history t n l g) (ht : t < 2 ^ 47) {p : Packet}
    (hdue : n.due p = true) {next : BitVec 64} (hnext : n.upcoming = some next)
    (hp : p.isPaddingOnly = false) :
    (n.serve (.forward p)).value.2 =
      .forwarded (.ok (p.withSequenceNumber (next.setWidth 16))) := by
  have hback : p.sequenceNumber.setWidth 64 + n.ahead p = next := by
    simp only [ahead, hnext, Option.map_some, Option.getD_some]
    grind
  rw [reply_forward, (h.receive_of_due ht hdue).2, receive_new history hp]
  simp only [Except.map, Placement.raise, hback]

/-- After a restart, whatever the old stream was, all requests are answered as by a new numbering,
but for a constant that is added to the outgoing numbers. It brings the first packet to the number
that was due next. Both always answer if the ranges of a full history can be counted. -/
theorem replies_of_due {history : ℕ} (hhistory : history + 1 < UInt64.size) (before rest : List Request)
    (p : Packet) (hlen : before.length < 2 ^ 47)
    (hdue : ((new history).after before).due p = true) :
    let n := (new history).after before
    let c := (n.upcoming.map fun next => next.setWidth 16 - p.sequenceNumber).getD 0
    ((new history).serveAll before).overflow = false ∧
      (n.serveAll (.forward p :: rest)).overflow = false ∧
      ((new history).serveAll (.forward p :: rest)).overflow = false ∧
      (n.serveAll (.forward p :: rest)).value.2 =
        ((new history).serveAll (.forward p :: rest)).value.2.map (Reply.raise c) ∧
      (n.upcoming = none ↔ ∀ q, .forward q ∉ before) ∧
      ∀ next, n.upcoming = some next → p.isPaddingOnly = false →
        (n.serve (.forward p)).value.2 =
          .forwarded (.ok (p.withSequenceNumber (next.setWidth 16))) := by
  intro n c
  obtain ⟨l, g, h⟩ := follows_run history before hlen.le
  obtain ⟨hlags, hres⟩ := h.receive_of_due hlen hdue
  have hc : (n.ahead p).setWidth 16 = c := setWidth_ahead n p
  have hreply := reply_raise hres
  rw [hc] at hreply
  have hnew := History.new_capacity_lt (k := 64) (v := 64) hhistory
  have hafter := capacity_after_new_lt hhistory before
  refine ⟨overflow_serveAll hnew _, overflow_serveAll hafter _, overflow_serveAll hnew _, ?_, ?_,
    fun next hnext hp => ?_⟩
  · have hrest := hlags.serveAll (h.receive_head_ne_none hlen p) rest
    rw [hc] at hrest
    exact congrArg₂ List.cons hreply hrest
  · rw [h.upcoming_eq_none_iff hlen, head_eq_none_iff history before hlen.le]
  · exact h.reply_first hlen hdue hnext hp

/-- Two numbers are reserved, one of them while the restart is pending. -/
private def pending : List Request :=
  [.forward ⟨1, 10, 0, [1], 0⟩, .inject 1, .restart, .inject 1, .restart]

theorem replies_of_due_pending :
    pending.length < 2 ^ 47 ∧ ((new 4).after pending).due ⟨1, 900, 0, [1], 0⟩ = true ∧
      (((new 4).after pending).serveAll
          [.forward ⟨1, 900, 0, [1], 0⟩, .forward ⟨1, 899, 0, [1], 0⟩, .inject 2]).value.2 =
        ((new 4).serveAll
          [.forward ⟨1, 900, 0, [1], 0⟩, .forward ⟨1, 899, 0, [1], 0⟩, .inject 2]).value.2.map
          (Reply.raise (13 - 900)) ∧
      (((new 4).after pending).serve (.forward ⟨1, 900, 0, [1], 0⟩)).value.2 =
        .forwarded (.ok ⟨1, 13, 0, [1], 0⟩) := by
  have hlen : pending.length < 2 ^ 47 := by decide
  have hdue : ((new 4).after pending).due ⟨1, 900, 0, [1], 0⟩ = true := by decide
  have hnext : ((new 4).after pending).upcoming = some 13 := by decide
  have hhistory : 4 + 1 < UInt64.size := by decide
  obtain ⟨-, -, -, hreplies, -, hfirst⟩ := replies_of_due hhistory pending
    [.forward ⟨1, 899, 0, [1], 0⟩, .inject 2] ⟨1, 900, 0, [1], 0⟩ hlen hdue
  rw [hnext] at hreplies
  exact ⟨hlen, hdue, hreplies, hfirst 13 hnext rfl⟩

/-- With the largest history, what was reserved before the restart leaves no answer after it. -/
theorem replies_of_due_overflow :
    ((new (UInt64.size - 1)).serveAll
        [.forward ⟨1, 10, 0, [1], 0⟩, .inject 1, .restart, .forward ⟨1, 500, 0, [1], 0⟩]).outcome.isNone ∧
      ((new (UInt64.size - 1)).serveAll [.forward ⟨1, 500, 0, [1], 0⟩]).outcome.isSome := by
  decide

end Renumber.Numbering
