import Renumber.Proofs.Steps

/-! Within one stream the outgoing numbers have no gap and no number is used twice, whatever is
lost, late, left out or reserved. -/
namespace Renumber

open Renumber.Numbering (Exchange)

namespace Ledger

/-- The books of a single stream, read off its exchanges. -/
def of (xs : List Exchange) : Ledger where
  first := ((xs.filterMap Exchange.extended).map fun e => (e.toNat : ℤ)).head?
  dropped := ((xs.filterMap Exchange.dropped).map fun e => (e.toNat : ℤ)).toFinset
  reserved := xs.filterMap Exchange.burst

theorem of_concat (xs : List Exchange) {x : Exchange} (h : x.rebases = false) :
    of (xs ++ [x]) = (of xs).add x := by
  have hfirst : (of (xs ++ [x])).first =
      (of xs).first.or (x.extended.map fun e => (e.toNat : ℤ)) := by
    simp only [of, List.filterMap_append, List.map_append, List.head?_append]
    cases he : x.extended <;> simp [he]
  have hdropped : (of (xs ++ [x])).dropped =
      x.dropped.elim (of xs).dropped fun e => insert (e.toNat : ℤ) (of xs).dropped := by
    simp only [of, List.filterMap_append, List.map_append, List.toFinset_append]
    cases hd : x.dropped with
    | none => simp [hd]
    | some e => simp [hd, Finset.union_comm]
  have hreserved : (of (xs ++ [x])).reserved = (of xs).reserved ++ x.burst.toList := by
    simp only [of, List.filterMap_append]
    cases hb : x.burst <;> simp [hb]
  have hmeet : (of xs).meet x = { of xs with first := (of (xs ++ [x])).first } := by
    rw [meet_of_not_rebases _ h, hfirst]
  unfold add
  rw [hmeet]
  apply Ledger.ext
  · cases x.dropped <;> cases x.burst <;> rfl
  · cases x.dropped <;> cases x.burst <;> rfl
  · rw [hdropped]
    cases x.dropped <;> cases x.burst <;> rfl
  · rw [hreserved]
    cases x.dropped <;> cases x.burst <;> simp [reserve, drop]

/-- The books have all numbers that the exchanges reserve, if those that enter none reserve none. -/
theorem numbers_of {xs : List Exchange} (h : ∀ x ∈ xs, x.burst = none → x.reserved = []) :
    (of xs).numbers = ((xs.flatMap Exchange.reserved).map fun m => (m.toNat : ℤ) : List ℤ) := by
  induction xs with
  | nil => rfl
  | cons x rest ih =>
    have hrest := ih fun y hy => h y (List.mem_cons_of_mem _ hy)
    simp only [numbers, of, Multiset.coe_eq_coe] at hrest ⊢
    rw [List.flatMap_cons, List.map_append]
    cases hb : x.burst with
    | none =>
      rw [List.filterMap_cons_none hb, h x List.mem_cons_self hb]
      exact hrest
    | some entry =>
      rw [List.filterMap_cons_some hb, List.flatMap_cons, Exchange.burst_eq_some hb]
      exact hrest.append_left _

end Ledger

namespace Numbering

/-- A packet of the source, or a reservation. -/
def Steady (source : BitVec 32) : Request → Prop
  | .forward p => p.ssrc = source
  | .inject _ => True
  | .restart => False

/-- No restart is pending, and packets came from no other source. -/
structure Bound (source : BitVec 32) (n : Numbering) : Prop where
  restartPending : n.restartPending = false
  ssrc : ∀ s, n.ssrc = some s → s = source

theorem Bound.rebases {source : BitVec 32} {n : Numbering} (h : Bound source n) {request : Request}
    (hr : Steady source request) : Exchange.rebases ⟨n, request⟩ = false := by
  cases request with
  | forward p =>
    have hsame : n.ssrc.any (· != p.ssrc) = false := by
      rw [Option.any_eq_false]
      intro s hs
      rw [h.ssrc s hs, show p.ssrc = source from hr]
      simp
    simp only [Exchange.rebases, due, h.restartPending, hsame, Bool.or_self]
  | inject count => rfl
  | restart => rfl

theorem Bound.after {source : BitVec 32} {n : Numbering} (h : Bound source n)
    (hnext : n.nextOutgoing.value = .ok n.upcoming) {request : Request}
    (hr : Steady source request) : Bound source (Exchange.after ⟨n, request⟩) := by
  cases request with
  | forward p =>
    have hdue : n.due p = false := h.rebases hr
    rw [Exchange.after_forward, value_receive_of_not_due hdue]
    rcases n.unwrapper.extend p.sequenceNumber with ⟨_ | e, unwrapper⟩
    · exact ⟨h.restartPending, fun s hs => (Option.some.inj hs).symm.trans hr⟩
    · obtain ⟨hssrc, hpending⟩ :=
        place_keeps { n with ssrc := some p.ssrc, unwrapper := unwrapper } p e
      refine ⟨hpending.trans h.restartPending, fun s hs => ?_⟩
      rw [hssrc] at hs
      exact (Option.some.inj hs).symm.trans hr
  | inject count =>
    rw [Exchange.after_inject, value_reserve, hnext]
    split
    · exact h
    · exact h
    split
    · exact h
    simp only
    split <;> exact ⟨h.restartPending, h.ssrc⟩
  | restart => cases hr

/-- The exchange agrees with the books and the state at the end of the run. -/
structure Agrees (n : Numbering) (g : Ledger) (x : Exchange) : Prop where
  placed : ∀ spot, x.placed = some spot → x.extended = some spot.incoming ∧ Slotted n g spot
  injected : ∀ count, x.request = .inject count →
    x.reply = .injected (.ok (x.reserved.map (·.setWidth 16)))
  reserved : x.burst = none → x.reserved = []

/-- Before the first packet no numbers are reserved. -/
theorem Follows.reserved_of_burst {history t : ℕ} {n : Numbering} {l : Line} {g : Ledger}
    (h : Follows history t n l g) (ht : t < 2 ^ 47) {request : Request}
    (hb : Exchange.burst ⟨n, request⟩ = none) : Exchange.reserved ⟨n, request⟩ = [] := by
  cases request with
  | forward p => rfl
  | inject count =>
    cases hhead : n.head with
    | none =>
      rw [Exchange.reserved_inject, h.reserve_of_none ht hhead]
      rfl
    | some head => simp [Exchange.burst, hhead] at hb
  | restart => rfl

/-- A run of one stream on a new numbering follows its books, and every exchange agrees with the
books at the end. -/
theorem follows_of_steady (history : ℕ) (source : BitVec 32) (requests : List Request)
    (hlen : requests.length ≤ 2 ^ 47) (hsteady : ∀ r ∈ requests, Steady source r) :
    Bound source ((new history).after requests) ∧
      (∃ l, Follows history requests.length ((new history).after requests) l
        (Ledger.of ((new history).exchanges requests))) ∧
      ∀ x ∈ (new history).exchanges requests,
        Agrees ((new history).after requests) (Ledger.of ((new history).exchanges requests)) x := by
  induction requests using List.reverseRecOn with
  | nil =>
    refine ⟨⟨rfl, ?_⟩, follows_new history, ?_⟩
    · intro s hs
      cases hs
    · intro x hx
      cases hx
  | append_singleton rest request ih =>
    rw [List.length_append, List.length_singleton] at hlen
    have hrest : ∀ r ∈ rest, Steady source r := fun r hr => hsteady r (List.mem_append_left _ hr)
    have hr : Steady source request := hsteady request (by simp)
    obtain ⟨hbound, ⟨l, hfollows⟩, hagrees⟩ := ih (by omega) hrest
    have hrebases := hbound.rebases hr
    have hbooked := hfollows.booked (by omega) request
    rw [exchanges_concat, after_concat, Ledger.of_concat _ hrebases, List.length_append,
      List.length_singleton]
    refine ⟨hbound.after (hfollows.nextOutgoing (by omega)) hr, hbooked.follows, ?_⟩
    intro x hx
    rcases List.mem_append.mp hx with hx | hx
    · -- an earlier exchange still agrees, for its number is not ahead of the head
      refine ⟨?_, (hagrees x hx).injected, (hagrees x hx).reserved⟩
      intro spot hspot
      obtain ⟨hext, hslotted⟩ := (hagrees x hx).placed spot hspot
      exact ⟨hext, hslotted.next hbooked hrebases⟩
    · obtain rfl := List.mem_singleton.mp hx
      exact ⟨hbooked.placed, hbooked.injected, hfollows.reserved_of_burst (by omega)⟩

/-- Nothing can be reserved at first. Number 11 is left out, number 13 comes late, and two numbers are
reserved. -/
private def lossy : List Request :=
  [.inject 3, .forward ⟨7, 10, 0, [1], 0⟩, .forward ⟨7, 11, 0, [], 0⟩, .forward ⟨7, 14, 0, [1], 0⟩, .inject 2,
    .forward ⟨7, 13, 0, [1], 0⟩, .forward ⟨7, 15, 0, [1], 0⟩]

end Numbering

end Renumber
