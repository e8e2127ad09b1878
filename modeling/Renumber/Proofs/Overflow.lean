import Renumber.Proofs.Capacity
import Renumber.Proofs.Exchange

/-! A numbering does not overflow where the ranges of its full history of offsets can be counted in a
machine word. -/
namespace Renumber.Numbering

variable {n : Numbering}

theorem overflow_nextOutgoing (n : Numbering) : n.nextOutgoing.overflow = false := by
  unfold nextOutgoing
  cases n.head <;> rfl

theorem overflow_follow (n : Numbering) (ssrc : BitVec 32) : (n.follow ssrc).overflow = false := by
  unfold follow
  cases n.ssrc.any (· != ssrc) <;> rfl

theorem overflow_rebase (n : Numbering) (extended : BitVec 64) :
    (n.rebase extended).overflow = false := by
  rw [rebase, Traced.overflow_bind, overflow_nextOutgoing]
  cases n.nextOutgoing.value <;> rfl

theorem overflow_placeLate (n : Numbering) (ssrc : BitVec 32) (sequenceNumber : BitVec 16)
    (extended : BitVec 64) : (n.placeLate ssrc sequenceNumber extended).overflow = false := by
  rw [placeLate, Traced.overflow_bind, History.overflow_lookup, History.value_lookup]
  cases n.offsets.get extended with
  | ok offset => rfl
  | error e => cases e <;> rfl

theorem overflow_dropPadding (hcapacity : n.offsets.capacity + 1 < UInt64.size) (extended : BitVec 64) :
    (n.dropPadding extended).overflow = false := by
  rw [dropPadding, Traced.overflow_bind, History.overflow_exclude hcapacity]
  cases (n.offsets.exclude extended (extended + 1)).value <;> rfl

theorem overflow_placeHead (n : Numbering) (extended : BitVec 64) :
    (n.placeHead extended).overflow = false := by
  rw [placeHead, Traced.overflow_bind, History.overflow_lookup, History.value_lookup]
  cases n.offsets.get extended <;> rfl

theorem overflow_place (hcapacity : n.offsets.capacity + 1 < UInt64.size) (p : Packet)
    (extended : BitVec 64) : (n.place p extended).overflow = false := by
  unfold place
  split
  · rfl
  split
  · exact overflow_placeLate ..
  split
  · exact overflow_dropPadding (n := { n with head := some extended }) hcapacity extended
  · exact overflow_placeHead ..

theorem offsets_follow (n : Numbering) (ssrc : BitVec 32) :
    (n.follow ssrc).value.offsets = n.offsets := by
  unfold follow
  cases n.ssrc.any (· != ssrc) <;> rfl

theorem capacity_rebase {n' : Numbering} {extended : BitVec 64}
    (hok : (n.rebase extended).value = .ok n') : n'.offsets.capacity = n.offsets.capacity := by
  rw [value_rebase] at hok
  cases hnext : n.nextOutgoing.value with
  | error e =>
    rw [hnext] at hok
    cases hok
  | ok next =>
    rw [hnext] at hok
    exact (Except.ok.inj hok) ▸ rfl

theorem overflow_receive (hcapacity : n.offsets.capacity + 1 < UInt64.size) (p : Packet) :
    (n.receive p).overflow = false := by
  rw [receive, Traced.overflow_bind, overflow_follow, Bool.false_or]
  rw [← offsets_follow n p.ssrc] at hcapacity
  generalize (n.follow p.ssrc).value = m at hcapacity ⊢
  simp only
  rcases (if m.restartPending then {} else m.unwrapper : Unwrapper).extend p.sequenceNumber with
    ⟨_ | extended, unwrapper⟩
  · rfl
  simp only
  split
  · rw [Traced.overflow_bind, overflow_rebase, Bool.false_or]
    cases hrebase : (rebase { m with unwrapper := unwrapper } extended).value with
    | error e => rfl
    | ok m' => exact overflow_place (by rwa [capacity_rebase hrebase]) p extended
  · exact overflow_place (n := { m with unwrapper := unwrapper }) hcapacity p extended

theorem overflow_reserve (hcapacity : n.offsets.capacity + 1 < UInt64.size) (count : BitVec 16) :
    (n.reserve count).overflow = false := by
  rw [reserve, Traced.overflow_bind, overflow_nextOutgoing, Bool.false_or]
  rcases n.nextOutgoing.value with e | _ | next
  · rfl
  · rfl
  simp only
  split
  · rfl
  cases n.head with
  | none => rfl
  | some head =>
    rw [Traced.overflow_bind, History.overflow_lowerFrom hcapacity]
    cases (n.offsets.lowerFrom (head + 1) (count.setWidth 64)).value <;> rfl

theorem overflow_serve (hcapacity : n.offsets.capacity + 1 < UInt64.size) (request : Request) :
    (n.serve request).overflow = false := by
  cases request with
  | forward p =>
    rw [serve, Traced.overflow_map, forward, Traced.overflow_map, overflow_receive hcapacity]
  | inject count =>
    rw [serve, Traced.overflow_map, injectPadding, Traced.overflow_map, overflow_reserve hcapacity]
  | restart => rfl

theorem capacity_dropPadding (n : Numbering) (extended : BitVec 64) :
    (n.dropPadding extended).value.1.offsets.capacity = n.offsets.capacity := by
  rw [value_dropPadding]
  cases hexclude : (n.offsets.exclude extended (extended + 1)).value with
  | error e => rfl
  | ok offsets => exact History.capacity_exclude hexclude

theorem capacity_place (n : Numbering) (p : Packet) (extended : BitVec 64) :
    (n.place p extended).value.1.offsets.capacity = n.offsets.capacity := by
  rw [value_place]
  split
  · rfl
  split
  · rw [value_placeLate]
    split <;> rfl
  split
  · exact capacity_dropPadding { n with head := some extended } extended
  · rw [value_placeHead]
    split <;> rfl

theorem capacity_receive (n : Numbering) (p : Packet) :
    (n.receive p).value.1.offsets.capacity = n.offsets.capacity := by
  cases hdue : n.due p with
  | false =>
    rw [value_receive_of_not_due hdue]
    rcases n.unwrapper.extend p.sequenceNumber with ⟨_ | extended, unwrapper⟩
    · rfl
    · exact capacity_place { n with ssrc := some p.ssrc, unwrapper := unwrapper } p extended
  | true =>
    rw [value_receive_of_due hdue]
    cases n.nextOutgoing.value with
    | error e => rfl
    | ok next => exact capacity_place ..

theorem capacity_reserve (n : Numbering) (count : BitVec 16) :
    (n.reserve count).value.1.offsets.capacity = n.offsets.capacity := by
  rw [value_reserve]
  rcases n.nextOutgoing.value with e | _ | next
  · rfl
  · rfl
  simp only
  split
  · rfl
  cases n.head with
  | none => rfl
  | some head =>
    cases hlower : (n.offsets.lowerFrom (head + 1) (count.setWidth 64)).value with
    | error e => simp only [hlower]
    | ok offsets =>
      simp only [hlower]
      exact History.capacity_lowerFrom hlower

theorem capacity_serve (n : Numbering) (request : Request) :
    (n.serve request).value.1.offsets.capacity = n.offsets.capacity := by
  cases request with
  | forward p => exact capacity_receive n p
  | inject count => exact capacity_reserve n count
  | restart => rfl

theorem overflow_serveAll (hcapacity : n.offsets.capacity + 1 < UInt64.size) (requests : List Request) :
    (n.serveAll requests).overflow = false := by
  induction requests generalizing n with
  | nil => rfl
  | cons request rest ih =>
    have hrest := ih (n := (n.serve request).value.1) (by rwa [capacity_serve])
    simp only [serveAll, Traced.overflow_bind, Traced.overflow_pure, overflow_serve hcapacity,
      hrest, Bool.or_false]

theorem capacity_after (n : Numbering) (requests : List Request) :
    (n.after requests).offsets.capacity = n.offsets.capacity := by
  induction requests generalizing n with
  | nil => rfl
  | cons request rest ih =>
    rw [after_cons, ih]
    exact n.capacity_serve request

/-- The numbering that a run leaves goes on without overflow. -/
theorem capacity_after_new_lt {history : Nat} (hhistory : history + 1 < UInt64.size)
    (requests : List Request) : ((new history).after requests).offsets.capacity + 1 < UInt64.size := by
  rw [capacity_after]
  exact History.new_capacity_lt hhistory

end Renumber.Numbering
