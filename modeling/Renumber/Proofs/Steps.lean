import Renumber.Proofs.Arrival
import Mathlib.Data.List.Induction

/-! Every run of a numbering keeps the books of the incoming stream, exchange by exchange. -/
namespace Renumber.Numbering

/-- The packet goes to the slot of its number, which was not left out and is not ahead of the
head. -/
structure Slotted (n : Numbering) (g : Ledger) (spot : Placement) : Prop where
  kept : (spot.incoming.toNat : ℤ) ∉ g.dropped
  slot : spot.outgoing = BitVec.ofInt 64 (g.slot spot.incoming.toNat)
  behind : ∃ head, n.head = some head ∧ spot.incoming.toNat ≤ head.toNat

/-- An exchange that is entered in the books, which the state after it follows. -/
structure Booked (history t : ℕ) (x : Exchange) (g : Ledger) : Prop where
  follows : ∃ l, Follows history t x.after l (g.add x)
  placed : ∀ spot, x.placed = some spot → x.extended = some spot.incoming ∧
    Slotted x.after (g.add x) spot
  /-- Within a stream the head never moves back, and nothing changes up to it. -/
  settled : ∀ head, x.before.head = some head → x.rebases = false →
    (∃ head', x.after.head = some head' ∧ head.toNat ≤ head'.toNat) ∧
      ∀ k ≤ (head.toNat : ℤ), (k ∈ (g.add x).dropped ↔ k ∈ g.dropped) ∧
        (g.add x).slot k = g.slot k
  /-- A reservation is never refused, and is answered with the reserved numbers. -/
  injected : ∀ count, x.request = .inject count →
    x.reply = .injected (.ok (x.reserved.map (·.setWidth 16)))

variable {history t : ℕ} {n : Numbering} {l : Line} {g : Ledger} {p : Packet} {head e : BitVec 64}

/-- Within a stream, a packet that was forwarded stays in its slot. -/
theorem Slotted.next {spot : Placement} (h : Slotted n g spot) {request : Request}
    (hbooked : Booked history t ⟨n, request⟩ g) (hr : Exchange.rebases ⟨n, request⟩ = false) :
    Slotted (Exchange.after ⟨n, request⟩) (g.add ⟨n, request⟩) spot := by
  obtain ⟨head, hhead, hle⟩ := h.behind
  obtain ⟨⟨head', hhead', hle'⟩, hsame⟩ := hbooked.settled head hhead hr
  obtain ⟨hiff, hkeep⟩ := hsame spot.incoming.toNat (by omega)
  constructor
  · exact mt hiff.mp h.kept
  · rw [h.slot, hkeep]
  · exact ⟨head', hhead', by omega⟩

/-- A packet ahead of the head changes the books in which it is entered. -/
theorem Leads.booked {m : Numbering} (h : Leads history t m p e (g.meet ⟨n, .forward p⟩))
    (hrec : (n.receive p).value = (m.place p e).value)
    (hext : Exchange.extended ⟨n, .forward p⟩ = some e)
    (hlead : ∀ head, n.head = some head → n.due p = false →
      head.toNat < e.toNat ∧ g.meet ⟨n, .forward p⟩ = g) :
    Booked history t ⟨n, .forward p⟩ g := by
  obtain ⟨hhead, hpadding, hcontent⟩ := h
  rw [← hrec] at hhead hpadding hcontent
  cases hp : p.isPaddingOnly with
  | true =>
    obtain ⟨hres, hfollows⟩ := hpadding hp
    have hadd := Ledger.add_of_dropped g hres hext
    constructor
    · rw [hadd]
      exact hfollows
    · intro spot hspot
      rw [Exchange.placed_of_error hres] at hspot
      cases hspot
    · intro head hh hdue
      obtain ⟨hlt, hmeet⟩ := hlead head hh hdue
      refine ⟨⟨e, hhead, by omega⟩, ?_⟩
      intro k hk
      rw [hadd, hmeet]
      constructor
      · have hne : k ≠ e.toNat := by omega
        simp [Ledger.drop, hne]
      · exact g.slot_drop_of_le (by omega)
    · intro count hcount
      cases hcount
  | false =>
    obtain ⟨hres, hmem, hfollows⟩ := hcontent hp
    have hadd := Ledger.add_of_not_dropped g (p := p) (n := n) (by simp [hres])
    constructor
    · rw [hadd]
      exact hfollows
    · intro spot hspot
      rw [Exchange.placed_of_ok hres] at hspot
      obtain rfl := Option.some.inj hspot
      rw [hadd]
      exact ⟨hext, hmem, rfl, e, hhead, le_rfl⟩
    · intro head hh hdue
      obtain ⟨hlt, hmeet⟩ := hlead head hh hdue
      rw [hadd, hmeet]
      exact ⟨⟨e, hhead, by omega⟩, fun k hk => ⟨Iff.rfl, rfl⟩⟩
    · intro count hcount
      cases hcount

namespace Follows

/-- A packet that is not ahead of the head leaves the books as they are. -/
theorem booked_behind (h : Follows history t n l g) (ht : t < 2 ^ 47) (hhead : n.head = some head)
    (he : e.toNat ≤ head.toNat)
    (hrec : (n.receive p).value = (place { n with ssrc := some p.ssrc } p e).value)
    (hext : Exchange.extended ⟨n, .forward p⟩ = some e) (hmeet : g.meet ⟨n, .forward p⟩ = g) :
    Booked history (t + 1) ⟨n, .forward p⟩ g := by
  have hm := h.source (some p.ssrc)
  obtain ⟨stats, hafter, hrefused, hspot⟩ := hm.place_behind ht p hhead he
  rw [← hrec] at hafter hrefused hspot
  have hadd : g.add ⟨n, .forward p⟩ = g := by
    refine (Ledger.add_of_not_dropped g fun hdrop => ?_).trans hmeet
    rcases hrefused _ hdrop with hr | hr | hr <;> cases hr
  have hstays : Exchange.after ⟨n, .forward p⟩ = { n with ssrc := some p.ssrc, stats := stats } :=
    hafter
  constructor
  · rw [hstays, hadd]
    exact ⟨l, h.stay rfl rfl rfl rfl⟩
  · intro spot hplaced
    cases hres : (n.receive p).value.2 with
    | error refusal =>
      rw [Exchange.placed_of_error hres] at hplaced
      cases hplaced
    | ok found =>
      rw [Exchange.placed_of_ok hres] at hplaced
      obtain rfl := Option.some.inj hplaced
      obtain ⟨rfl, -, hmem, hslot⟩ := hspot found hres
      rw [hadd, hstays]
      exact ⟨hext, hmem, hslot, head, hhead, he⟩
  · intro head' hh _
    rw [hadd, hstays]
    exact ⟨⟨head', hh, le_rfl⟩, fun k hk => ⟨Iff.rfl, rfl⟩⟩
  · intro count hcount
    cases hcount

theorem booked_beforeStart (h : Follows history t n l g)
    (hrec : (n.receive p).value = ({ n with
      ssrc := some p.ssrc
      stats := { n.stats with rejected := n.stats.rejected + 1 } },
      .error (.beforeStart p.sequenceNumber)))
    (hmeet : g.meet ⟨n, .forward p⟩ = g) : Booked history (t + 1) ⟨n, .forward p⟩ g := by
  have hres : (n.receive p).value.2 = .error (.beforeStart p.sequenceNumber) := by
    rw [hrec]
  have hstays : Exchange.after ⟨n, .forward p⟩ = { n with
      ssrc := some p.ssrc
      stats := { n.stats with rejected := n.stats.rejected + 1 } } := by
    rw [Exchange.after_forward, hrec]
  have hadd := Ledger.add_of_not_dropped g (p := p) (n := n) (by simp [hres])
  rw [hmeet] at hadd
  constructor
  · rw [hstays, hadd]
    exact ⟨l, h.stay rfl rfl rfl rfl⟩
  · intro spot hplaced
    rw [Exchange.placed_of_error hres] at hplaced
    cases hplaced
  · intro head hh _
    rw [hstays, hadd]
    exact ⟨⟨head, hh, le_rfl⟩, fun k hk => ⟨Iff.rfl, rfl⟩⟩
  · intro count hcount
    cases hcount

theorem booked_forward (h : Follows history t n l g) (ht : t < 2 ^ 47) (p : Packet) :
    Booked history (t + 1) ⟨n, .forward p⟩ g := by
  cases h.arrival ht p with
  | ahead e hrec hext hpasses _ hleads => exact hleads.booked hrec hext hpasses
  | behind head e hhead he hrec hext hmeet => exact h.booked_behind ht hhead he hrec hext hmeet
  | beforeStart head hhead hrec _ hmeet => exact h.booked_beforeStart hrec hmeet

theorem booked_inject_of_none (h : Follows history t n l g) (ht : t < 2 ^ 47)
    (hhead : n.head = none) (count : BitVec 16) :
    Booked history (t + 1) ⟨n, .inject count⟩ g := by
  have hres := h.reserve_of_none ht hhead count
  have hafter : Exchange.after ⟨n, .inject count⟩ = n := by
    rw [Exchange.after_inject, hres]
  have hadd : g.add ⟨n, .inject count⟩ = g := by
    rw [Ledger.add_inject]
    simp [Exchange.burst, hhead]
  constructor
  · rw [hafter, hadd]
    exact ⟨l, h.stay rfl rfl rfl rfl⟩
  · intro spot hspot
    cases hspot
  · intro head hh
    rw [show n.head = some head from hh] at hhead
    cases hhead
  · intro _ _
    rw [Exchange.reply_inject, Exchange.reserved_inject, hres]
    rfl

theorem booked_inject_of_some (h : Follows history t n l g) (ht : t < 2 ^ 47)
    (hhead : n.head = some head) (count : BitVec 16) :
    Booked history (t + 1) ⟨n, .inject count⟩ g := by
  have hled := h.led head hhead
  obtain ⟨f, hfirst, h0, hf, hspans, hpos⟩ := hled.first
  have hfar := hled.far
  have hnear := hled.near
  obtain ⟨stats, lastOutgoing, l', hres, hstart, hkept⟩ := h.reserve ht hhead count
  have hafter : Exchange.after ⟨n, .inject count⟩ = { n with
      offsets := l'.wrap
      lastOutgoing := lastOutgoing
      stats := stats } := by
    rw [Exchange.after_inject, hres]
  have hadd : g.add ⟨n, .inject count⟩ = g.reserve head.toNat
      ((List.range count.toNat).map fun i : ℕ => g.slot (head.toNat + 1) + i) := by
    rw [Ledger.add_inject, h.burst ht hhead]
    rfl
  have hspans' := hspans.reserve (by omega) count.toNat
  rw [add_sub_cancel_right] at hspans'
  constructor
  · rw [hafter, hadd]
    refine ⟨l', hkept _ (by simp), h.highest, ?_, ?_⟩
    · intro hnone
      rw [show n.head = none from hnone] at hhead
      cases hhead
    · intro head' hh
      obtain rfl := Option.some.inj (hhead.symm.trans hh)
      refine ⟨hstart, by omega, ⟨f, hfirst, h0, hf, hspans', ?_⟩, ?_⟩
      · rwa [g.slot_reserve_of_le _ hf]
      · rw [g.slot_reserve_of_lt _ (by omega), List.length_map, List.length_range]
        omega
  · intro spot hspot
    cases hspot
  · intro head' hh _
    obtain rfl := Option.some.inj (hhead.symm.trans hh)
    rw [hafter, hadd]
    exact ⟨⟨head, hhead, le_rfl⟩, fun k hk => ⟨Iff.rfl, g.slot_reserve_of_le _ hk⟩⟩
  · intro _ _
    rw [Exchange.reply_inject, Exchange.reserved_inject, hres]
    rfl

/-- Every exchange keeps the books, and forwards nothing but to its slot. -/
theorem booked (h : Follows history t n l g) (ht : t < 2 ^ 47) (request : Request) :
    Booked history (t + 1) ⟨n, request⟩ g := by
  cases request with
  | forward p => exact h.booked_forward ht p
  | inject count =>
    cases hhead : n.head with
    | none => exact h.booked_inject_of_none ht hhead count
    | some head => exact h.booked_inject_of_some ht hhead count
  | restart =>
    have hadd := Ledger.add_restart g n
    constructor
    · rw [hadd]
      exact ⟨l, h.stay rfl rfl rfl rfl⟩
    · intro spot hspot
      cases hspot
    · intro head hh _
      rw [hadd]
      exact ⟨⟨head, hh, le_rfl⟩, fun k hk => ⟨Iff.rfl, rfl⟩⟩
    · intro count hcount
      cases hcount

end Follows

/-- Every run on a new numbering keeps the books in which its exchanges are entered. -/
theorem follows_books (history : ℕ) (requests : List Request) (hlen : requests.length ≤ 2 ^ 47) :
    ∃ l, Follows history requests.length ((new history).after requests) l
      (((new history).exchanges requests).foldl Ledger.add {}) := by
  induction requests using List.reverseRecOn with
  | nil => exact follows_new history
  | append_singleton rest request ih =>
    rw [List.length_append, List.length_singleton] at hlen
    obtain ⟨l, h⟩ := ih (by omega)
    rw [after_concat, exchanges_concat, List.foldl_append, List.length_append,
      List.length_singleton]
    exact (h.booked (by omega) request).follows

theorem follows_run (history : ℕ) (requests : List Request) (hlen : requests.length ≤ 2 ^ 47) :
    ∃ l g, Follows history requests.length ((new history).after requests) l g := by
  obtain ⟨l, h⟩ := follows_books history requests hlen
  exact ⟨l, _, h⟩

/-- Every exchange of a run on a new numbering meets a state with books. -/
theorem follows_of_mem {history : ℕ} {requests : List Request} (hlen : requests.length ≤ 2 ^ 47)
    {x : Exchange} (hx : x ∈ (new history).exchanges requests) :
    ∃ t < requests.length, ∃ l g, Follows history t x.before l g := by
  obtain ⟨earlier, hlt, hbefore⟩ := exists_before_eq hx
  rw [hbefore]
  exact ⟨earlier.length, hlt, follows_run history earlier (by omega)⟩

end Renumber.Numbering
