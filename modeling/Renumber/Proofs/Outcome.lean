import Renumber.Numbering.Request

/-! What the operations of a numbering give, with their branches in the open and the reported events
left aside. -/
namespace Renumber.Numbering

/-- The packet starts the incoming numbers anew: a restart is pending or the source changes. -/
def due (n : Numbering) (p : Packet) : Bool := n.restartPending || n.ssrc.any (· != p.ssrc)

/-- The outgoing number of a packet right after the head, if there is a head. -/
def upcoming (n : Numbering) : Option (BitVec 64) :=
  n.head.bind fun head => match (n.placeHead (head + 1)).value.2 with
    | .ok spot => some spot.outgoing
    | .error _ => none

/-- The state in which a packet is unwrapped and placed: it has the packet's source, and has started
anew if a restart is due. -/
def facing (n : Numbering) (p : Packet) : Numbering :=
  if n.due p then
    { n with
      offsets := n.offsets.reset ((n.upcoming.map (p.sequenceNumber.setWidth 64 - ·)).getD 0)
      unwrapper := {}
      ssrc := some p.ssrc
      head := none
      restartPending := false
      stats := { n.stats with restarts := n.stats.restarts + 1 } }
  else { n with ssrc := some p.ssrc }

theorem facing_of_due {n : Numbering} {p : Packet} (h : n.due p = true) :
    n.facing p = { n with
      offsets := n.offsets.reset ((n.upcoming.map (p.sequenceNumber.setWidth 64 - ·)).getD 0)
      unwrapper := {}
      ssrc := some p.ssrc
      head := none
      restartPending := false
      stats := { n.stats with restarts := n.stats.restarts + 1 } } :=
  if_pos h

theorem facing_of_not_due {n : Numbering} {p : Packet} (h : n.due p = false) :
    n.facing p = { n with ssrc := some p.ssrc } := by
  rw [facing, h]
  rfl

theorem value_follow (n : Numbering) (p : Packet) :
    (n.follow p.ssrc).value = { n with restartPending := n.due p, ssrc := some p.ssrc } := by
  simp only [follow, due]
  cases n.ssrc.any (· != p.ssrc) with
  | false => simp
  | true => simp [restart]

theorem value_nextOutgoing (n : Numbering) :
    n.nextOutgoing.value = match n.head with
      | some head => (n.offsets.get (head + 1)).map fun o => some (head + 1 - o)
      | none => .ok (n.lastOutgoing.map (· + 1)) := by
  unfold nextOutgoing
  cases n.head <;> rfl

theorem value_rebase (n : Numbering) (extended : BitVec 64) :
    (n.rebase extended).value = n.nextOutgoing.value.map fun next =>
      { n with
        offsets := n.offsets.reset ((next.map (extended - ·)).getD 0)
        head := none
        restartPending := false
        stats := { n.stats with restarts := n.stats.restarts + 1 } } := by
  simp only [rebase, Traced.value_bind]
  cases n.nextOutgoing.value <;> rfl

theorem value_placeLate (n : Numbering) (ssrc : BitVec 32) (sequenceNumber : BitVec 16)
    (extended : BitVec 64) :
    (n.placeLate ssrc sequenceNumber extended).value = match n.offsets.get extended with
      | .ok offset =>
        ({ n with
          stats := { n.stats with
            forwarded := n.stats.forwarded + 1
            outOfOrder := n.stats.outOfOrder + 1 } }, .ok ⟨extended, extended - offset⟩)
      | .error .excluded =>
        ({ n with stats := { n.stats with rejected := n.stats.rejected + 1 } },
          .error (.excluded extended))
      | .error .tooOld =>
        ({ n with stats := { n.stats with rejected := n.stats.rejected + 1 } },
          .error (.tooOld extended))
      | .error e => (n, .error (.inconsistent e)) := by
  simp only [placeLate, Traced.value_bind, History.value_lookup]
  cases n.offsets.get extended with
  | ok offset => rfl
  | error e => cases e <;> rfl

theorem value_dropPadding (n : Numbering) (extended : BitVec 64) :
    (n.dropPadding extended).value = match (n.offsets.exclude extended (extended + 1)).value with
      | .error e => (n, .error (.inconsistent e))
      | .ok offsets =>
        ({ n with
          offsets := offsets
          stats := { n.stats with paddingDropped := n.stats.paddingDropped + 1 } },
          .error .paddingDropped) := by
  simp only [dropPadding, Traced.value_bind]
  cases (n.offsets.exclude extended (extended + 1)).value <;> rfl

theorem value_placeHead (n : Numbering) (extended : BitVec 64) :
    (n.placeHead extended).value = match n.offsets.get extended with
      | .error e => (n, .error (.inconsistent e))
      | .ok offset =>
        ({ n with
          lastOutgoing := some (extended - offset)
          stats := { n.stats with forwarded := n.stats.forwarded + 1 } },
          .ok ⟨extended, extended - offset⟩) := by
  simp only [placeHead, Traced.value_bind, History.value_lookup]
  cases n.offsets.get extended <;> rfl

theorem value_place (n : Numbering) (p : Packet) (extended : BitVec 64) :
    (n.place p extended).value =
      if n.head = some extended then
        ({ n with stats := { n.stats with duplicate := n.stats.duplicate + 1 } },
          .error (.duplicate extended))
      else if n.head.any (extended < ·) then
        (n.placeLate p.ssrc p.sequenceNumber extended).value
      else if p.isPaddingOnly then (dropPadding { n with head := some extended } extended).value
      else (placeHead { n with head := some extended } extended).value := by
  unfold place
  split
  · rfl
  split
  · rfl
  split <;> rfl

theorem place_keeps (n : Numbering) (p : Packet) (e : BitVec 64) :
    (n.place p e).value.1.ssrc = n.ssrc ∧
      (n.place p e).value.1.restartPending = n.restartPending := by
  rw [value_place]
  split
  · exact ⟨rfl, rfl⟩
  split
  · rw [value_placeLate]
    split <;> exact ⟨rfl, rfl⟩
  split
  · rw [value_dropPadding]
    split <;> exact ⟨rfl, rfl⟩
  · rw [value_placeHead]
    split <;> exact ⟨rfl, rfl⟩

theorem value_receive_of_not_due {n : Numbering} {p : Packet} (h : n.due p = false) :
    (n.receive p).value = match n.unwrapper.extend p.sequenceNumber with
      | (none, unwrapper) =>
        ({ n with
          ssrc := some p.ssrc
          unwrapper := unwrapper
          stats := { n.stats with rejected := n.stats.rejected + 1 } },
          .error (.beforeStart p.sequenceNumber))
      | (some extended, unwrapper) =>
        (place { n with ssrc := some p.ssrc, unwrapper := unwrapper } p extended).value := by
  have hp : n.restartPending = false := by
    simp only [due, Bool.or_eq_false_iff] at h
    exact h.1
  simp only [receive, Traced.value_bind, value_follow, h, Bool.false_eq_true, if_false]
  rw [hp]
  rcases n.unwrapper.extend p.sequenceNumber with ⟨_ | extended, unwrapper⟩ <;> rfl

theorem value_receive_of_due {n : Numbering} {p : Packet} (h : n.due p = true) :
    (n.receive p).value = match n.nextOutgoing.value with
      | .error e =>
        ({ n with
          restartPending := true
          ssrc := some p.ssrc
          unwrapper := ⟨some (p.sequenceNumber.setWidth 64)⟩ }, .error (.inconsistent e))
      | .ok next =>
        (place { n with
          offsets := n.offsets.reset ((next.map (p.sequenceNumber.setWidth 64 - ·)).getD 0)
          unwrapper := ⟨some (p.sequenceNumber.setWidth 64)⟩
          ssrc := some p.ssrc
          head := none
          restartPending := false
          stats := { n.stats with restarts := n.stats.restarts + 1 } } p
          (p.sequenceNumber.setWidth 64)).value := by
  have hface : nextOutgoing { n with
      restartPending := true
      ssrc := some p.ssrc
      unwrapper := ⟨some (p.sequenceNumber.setWidth 64)⟩ } = n.nextOutgoing := by
    unfold nextOutgoing
    rfl
  simp only [receive, Traced.value_bind, value_follow, h, if_true, Unwrapper.extend, value_rebase,
    hface]
  cases n.nextOutgoing.value <;> rfl

theorem value_receive {n : Numbering} (hnext : n.nextOutgoing.value = .ok n.upcoming) (p : Packet) :
    (n.receive p).value = match (n.facing p).unwrapper.extend p.sequenceNumber with
      | (none, unwrapper) =>
        ({ n.facing p with
          unwrapper := unwrapper
          stats := { (n.facing p).stats with rejected := (n.facing p).stats.rejected + 1 } },
          .error (.beforeStart p.sequenceNumber))
      | (some extended, unwrapper) =>
        (place { n.facing p with unwrapper := unwrapper } p extended).value := by
  cases h : n.due p with
  | true =>
    rw [value_receive_of_due h, hnext, facing_of_due h]
    rfl
  | false =>
    rw [value_receive_of_not_due h, facing_of_not_due h]

theorem value_reserve (n : Numbering) (count : BitVec 16) :
    (n.reserve count).value = match n.nextOutgoing.value with
      | .error e => (n, .error e)
      | .ok none => (n, .ok [])
      | .ok (some next) =>
        if count = 0 then (n, .ok [])
        else
          let shifted := match n.head with
            | some head => (n.offsets.lowerFrom (head + 1) (count.setWidth 64)).value
            | none => .ok (n.offsets.lower (count.setWidth 64))
          match shifted with
          | .error e => (n, .error e)
          | .ok offsets =>
            ({ n with
              offsets := offsets
              lastOutgoing := some (next + (count.setWidth 64 - 1))
              stats := { n.stats with
                paddingInjected := n.stats.paddingInjected + UInt64.ofNat count.toNat } },
              .ok ((List.range count.toNat).map fun i => next + BitVec.ofNat 64 i)) := by
  simp only [reserve, Traced.value_bind]
  rcases n.nextOutgoing.value with e | _ | next
  · rfl
  · rfl
  by_cases hc : count = 0
  · simp [hc]
  simp only [hc, if_false]
  cases n.head with
  | none => rfl
  | some head =>
    simp only [Traced.value_bind]
    cases (n.offsets.lowerFrom (head + 1) (count.setWidth 64)).value <;> rfl

theorem answer_forward (n : Numbering) (p : Packet) :
    (n.forward p).value.2 = (n.receive p).value.2.map fun spot =>
      p.withSequenceNumber (spot.outgoing.setWidth 16) := rfl

theorem forward_eq_error_iff {n : Numbering} {p : Packet} {refusal : Refusal} :
    (n.forward p).value.2 = .error refusal ↔ (n.receive p).value.2 = .error refusal := by
  rw [answer_forward]
  cases (n.receive p).value.2 <;> simp [Except.map]

theorem forward_eq_ok_iff {n : Numbering} {p : Packet} :
    (∃ answer, (n.forward p).value.2 = .ok answer) ↔
      ∃ spot, (n.receive p).value.2 = .ok spot := by
  rw [answer_forward]
  cases (n.receive p).value.2 <;> simp [Except.map]

theorem reply_forward (n : Numbering) (p : Packet) :
    (n.serve (.forward p)).value.2 = .forwarded ((n.receive p).value.2.map fun spot =>
      p.withSequenceNumber (spot.outgoing.setWidth 16)) := rfl

theorem reply_inject (n : Numbering) (count : BitVec 16) :
    (n.serve (.inject count)).value.2 = .injected (match (n.reserve count).value.2 with
      | .ok numbers => .ok (numbers.map (·.setWidth 16))
      | .error e => .error (.inconsistent e)) := rfl

end Renumber.Numbering
