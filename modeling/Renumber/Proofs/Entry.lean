import Renumber.Proofs.Exchange
import Renumber.Proofs.Ledger
import Renumber.Proofs.Unwrapping

/-! What each exchange enters in the books. -/
namespace Renumber

namespace Numbering.Exchange

/-- The head at a reservation, and the numbers reserved. -/
def burst (x : Exchange) : Option (ℤ × List ℤ) :=
  match x.request, x.before.head with
  | .inject _, some head => some (head.toNat, x.reserved.map fun m => (m.toNat : ℤ))
  | _, _ => none

theorem burst_eq_some {x : Exchange} {entry : ℤ × List ℤ} (h : x.burst = some entry) :
    entry.2 = x.reserved.map fun m => (m.toNat : ℤ) := by
  unfold burst at h
  split at h
  · exact (Option.some.inj h) ▸ rfl
  · cases h

/-- How far the outgoing numbers are ahead of the incoming ones when these start anew. -/
def shift (x : Exchange) : ℤ :=
  match x.request with
  | .forward p =>
    (x.before.upcoming.map fun next => (next.toNat : ℤ) - p.sequenceNumber.toNat).getD 0
  | _ => 0

variable {n : Numbering} {p : Packet}

theorem shift_of_none (p : Packet) (h : n.upcoming = none) : shift ⟨n, .forward p⟩ = 0 := by
  simp [shift, h]

theorem shift_of_some (p : Packet) {next : BitVec 64} (h : n.upcoming = some next) :
    shift ⟨n, .forward p⟩ = next.toNat - p.sequenceNumber.toNat := by
  simp [shift, h]

theorem extended_of_due (h : n.due p = true) :
    extended ⟨n, .forward p⟩ = some (p.sequenceNumber.setWidth 64) := by
  rw [extended_forward, facing_of_due h, Unwrapper.extend_of_none rfl]

theorem dropped_of_padding (h : (n.receive p).value.2 = .error .paddingDropped) :
    dropped ⟨n, .forward p⟩ = extended ⟨n, .forward p⟩ := by
  rw [dropped, reply_forward, h]
  rfl

theorem dropped_of_not_padding (h : (n.receive p).value.2 ≠ .error .paddingDropped) :
    dropped ⟨n, .forward p⟩ = none := by
  rw [dropped, reply_forward]
  cases hres : (n.receive p).value.2 with
  | ok spot => rfl
  | error refusal =>
    cases refusal with
    | paddingDropped => exact absurd hres h
    | _ => rfl

end Numbering.Exchange

open Renumber.Numbering (Exchange Request)

namespace Ledger

/-- The books in which a packet is entered: new ones if it starts the incoming numbers anew. -/
def meet (g : Ledger) (x : Exchange) : Ledger :=
  let g : Ledger := if x.rebases then { shift := x.shift } else g
  { g with first := g.first.or (x.extended.map fun e => (e.toNat : ℤ)) }

def add (g : Ledger) (x : Exchange) : Ledger :=
  let g := x.dropped.elim (g.meet x) fun e => (g.meet x).drop e.toNat
  x.burst.elim g fun b => g.reserve b.1 b.2

variable {n : Numbering} {p : Packet}

theorem meet_of_rebases (g : Ledger) {x : Exchange} (h : x.rebases = true) :
    g.meet x = { first := x.extended.map fun e => (e.toNat : ℤ), shift := x.shift } := by
  simp [meet, h]

theorem meet_of_not_rebases (g : Ledger) {x : Exchange} (h : x.rebases = false) :
    g.meet x = { g with first := g.first.or (x.extended.map fun e => (e.toNat : ℤ)) } := by
  simp [meet, h]

theorem meet_of_due (g : Ledger) (h : n.due p = true) : g.meet ⟨n, .forward p⟩ =
    { first := some (p.sequenceNumber.toNat : ℤ), shift := Exchange.shift ⟨n, .forward p⟩ } := by
  have hr : Exchange.rebases ⟨n, .forward p⟩ = true := h
  rw [meet_of_rebases g hr, Exchange.extended_of_due h, Option.map_some, toNat_widen]

theorem add_forward (g : Ledger) (n : Numbering) (p : Packet) : g.add ⟨n, .forward p⟩ =
    (Exchange.dropped ⟨n, .forward p⟩).elim (g.meet ⟨n, .forward p⟩)
      fun e => (g.meet ⟨n, .forward p⟩).drop e.toNat := rfl

theorem add_inject (g : Ledger) (n : Numbering) (count : BitVec 16) :
    g.add ⟨n, .inject count⟩ =
      (Exchange.burst ⟨n, .inject count⟩).elim g fun b => g.reserve b.1 b.2 := by
  have hmeet : g.meet ⟨n, .inject count⟩ = g := by
    rw [meet_of_not_rebases g rfl]
    simp [Exchange.extended]
  unfold add
  rw [hmeet]
  rfl

theorem add_restart (g : Ledger) (n : Numbering) : g.add ⟨n, .restart⟩ = g := by
  have hmeet : g.meet ⟨n, .restart⟩ = g := by
    rw [meet_of_not_rebases g rfl]
    simp [Exchange.extended]
  unfold add
  rw [hmeet]
  rfl

theorem add_of_dropped (g : Ledger) {e : BitVec 64}
    (h : (n.receive p).value.2 = .error .paddingDropped)
    (he : Exchange.extended ⟨n, .forward p⟩ = some e) :
    g.add ⟨n, .forward p⟩ = (g.meet ⟨n, .forward p⟩).drop e.toNat := by
  rw [add_forward, Exchange.dropped_of_padding h, he]
  rfl

theorem add_of_not_dropped (g : Ledger) (h : (n.receive p).value.2 ≠ .error .paddingDropped) :
    g.add ⟨n, .forward p⟩ = g.meet ⟨n, .forward p⟩ := by
  rw [add_forward, Exchange.dropped_of_not_padding h]
  rfl

theorem add_first (g : Ledger) (x : Exchange) : (g.add x).first = (g.meet x).first := by
  unfold add
  cases x.dropped <;> cases x.burst <;> rfl

theorem add_shift (g : Ledger) (x : Exchange) : (g.add x).shift = (g.meet x).shift := by
  unfold add
  cases x.dropped <;> cases x.burst <;> rfl

theorem first_eq_none_of_add {g : Ledger} {request : Request}
    (h : (g.add ⟨n, request⟩).first = none) : g.first = none := by
  rw [add_first] at h
  cases hr : Exchange.rebases ⟨n, request⟩ with
  | false =>
    rw [meet_of_not_rebases g hr, Option.or_eq_none_iff] at h
    exact h.1
  | true =>
    cases request with
    | forward p =>
      rw [meet_of_due g hr] at h
      cases h
    | inject count => cases hr
    | restart => cases hr

theorem mem_numbers_add (g : Ledger) {x : Exchange} (h : x.rebases = false) {m : ℤ}
    (hm : m ∈ g.numbers) : m ∈ (g.add x).numbers := by
  have hreserved : (g.add x).reserved = g.reserved ++ x.burst.toList := by
    unfold add
    rw [meet_of_not_rebases g h]
    cases x.dropped <;> cases x.burst <;> simp [drop, reserve]
  have hm' : m ∈ g.reserved.flatMap (·.2) := hm
  have hall : m ∈ (g.reserved ++ x.burst.toList).flatMap (·.2) := by
    rw [List.flatMap_append]
    exact List.mem_append_left _ hm'
  rw [numbers, hreserved]
  exact hall

end Ledger

end Renumber
