import Renumber.Proofs.Delegation
import Renumber.Proofs.Steps

/-! A numbering never meets an inconsistency of its own: its history refuses nothing that it asks
for, and no sum exceeds 64 bits. -/
namespace Renumber

namespace Stats

/-- The counters after a packet with the given answer, and the head at its arrival. -/
def tally (s : Stats) (head : Option (BitVec 64)) : Except Refusal Placement → Stats
  | .ok spot =>
    if head.any (spot.incoming < ·) then
      { s with forwarded := s.forwarded + 1, outOfOrder := s.outOfOrder + 1 }
    else { s with forwarded := s.forwarded + 1 }
  | .error .paddingDropped => { s with paddingDropped := s.paddingDropped + 1 }
  | .error (.duplicate _) => { s with duplicate := s.duplicate + 1 }
  | .error (.inconsistent _) => s
  | .error _ => { s with rejected := s.rejected + 1 }

/-- What `t` requests can have counted at most. -/
structure Within (t : ℕ) (s : Stats) : Prop where
  forwarded : s.forwarded.toNat ≤ t
  outOfOrder : s.outOfOrder.toNat ≤ t
  paddingDropped : s.paddingDropped.toNat ≤ t
  paddingInjected : s.paddingInjected.toNat ≤ 2 ^ 16 * t
  rejected : s.rejected.toNat ≤ t
  duplicate : s.duplicate.toNat ≤ t
  restarts : s.restarts.toNat ≤ t

variable {s : Stats} {t : ℕ}

theorem tally_restarts (s : Stats) (r : UInt64) (head : Option (BitVec 64))
    (answer : Except Refusal Placement) :
    tally { s with restarts := r } head answer = { s.tally head answer with restarts := r } := by
  rcases answer with refusal | spot
  · cases refusal <;> rfl
  · simp only [tally]
    split <;> rfl

private theorem toNat_add_one_le {c : UInt64} (h : c.toNat ≤ t) (ht : t < 2 ^ 47) :
    (c + 1).toNat ≤ t + 1 := by
  rw [UInt64.toNat_add, UInt64.toNat_one]
  omega

theorem Within.mono (h : s.Within t) : s.Within (t + 1) := by
  obtain ⟨h1, h2, h3, h4, h5, h6, h7⟩ := h
  constructor <;> omega

theorem Within.tally (h : s.Within t) (ht : t < 2 ^ 47) (head : Option (BitVec 64))
    (answer : Except Refusal Placement) : (s.tally head answer).Within (t + 1) := by
  have hm := h.mono
  have hforwarded := toNat_add_one_le h.forwarded ht
  rcases answer with refusal | spot
  · cases refusal with
    | paddingDropped => exact { hm with paddingDropped := toNat_add_one_le h.paddingDropped ht }
    | duplicate => exact { hm with duplicate := toNat_add_one_le h.duplicate ht }
    | inconsistent => exact hm
    | _ => exact { hm with rejected := toNat_add_one_le h.rejected ht }
  · unfold Stats.tally
    simp only
    split
    · exact { hm with forwarded := hforwarded, outOfOrder := toNat_add_one_le h.outOfOrder ht }
    · exact { hm with forwarded := hforwarded }

end Stats

namespace Numbering

/-- No sum that serving the request takes exceeds 64 bits. -/
structure Exchange.Fits (x : Exchange) : Prop where
  /-- The unwrapper moves on to the number of a packet. -/
  unwrapper : ∀ p highest, x.request = .forward p →
    (x.before.facing p).unwrapper.highest = some highest →
      Serial.isOnOrAfter p.sequenceNumber (highest.setWidth 16) →
        highest.toNat + (Serial.distance p.sequenceNumber (highest.setWidth 16)).toNat < 2 ^ 64
  /-- The number after the packet's. -/
  extended : ∀ e, x.extended = some e → e.toNat + 1 < 2 ^ 64
  /-- The number after the head. -/
  head : ∀ head, x.before.head = some head → head.toNat + 1 < 2 ^ 64
  /-- A packet adds at most one to each counter. -/
  counters : ∀ counter ∈ [x.before.stats.forwarded, x.before.stats.outOfOrder,
    x.before.stats.paddingDropped, x.before.stats.rejected, x.before.stats.duplicate,
    x.before.stats.restarts], counter.toNat + 1 < 2 ^ 64
  paddingInjected : ∀ count, x.request = .inject count →
    x.before.stats.paddingInjected.toNat + count.toNat < 2 ^ 64

variable {history t : ℕ} {n : Numbering} {l : Line} {g : Ledger} {p : Packet} {e : BitVec 64}

theorem place_stats (n : Numbering) (p : Packet) (e : BitVec 64) :
    (n.place p e).value.1.stats = n.stats.tally n.head (n.place p e).value.2 := by
  rw [value_place]
  split
  · rfl
  split
  · next hlate =>
    rw [value_placeLate]
    rcases n.offsets.get e with error | offset
    · cases error <;> rfl
    · simp only [Stats.tally, hlate, if_true]
  split
  · rw [value_dropPadding]
    simp only
    split <;> rfl
  · next hlate _ =>
    rw [value_placeHead]
    simp only
    rcases n.offsets.get e with error | offset
    · rfl
    · simp only [Stats.tally, hlate]
      rfl

theorem receive_stats (hnext : n.nextOutgoing.value = .ok n.upcoming) (p : Packet) :
    (n.receive p).value.1.stats =
      (n.facing p).stats.tally (n.facing p).head (n.receive p).value.2 := by
  rw [value_receive hnext]
  rcases (n.facing p).unwrapper.extend p.sequenceNumber with ⟨_ | e, unwrapper⟩
  · rfl
  · exact place_stats _ p e

theorem reserve_within (h : n.stats.Within t) (count : BitVec 16) :
    (n.reserve count).value.1.stats.Within (t + 1) := by
  have hcount := count.isLt
  have hinjected :
      (n.stats.paddingInjected + UInt64.ofNat count.toNat).toNat ≤ 2 ^ 16 * (t + 1) := by
    have := h.paddingInjected
    rw [UInt64.toNat_add, UInt64.toNat_ofNat_of_lt' (by rw [UInt64.size]; omega)]
    omega
  rw [value_reserve]
  split
  · exact h.mono
  · exact h.mono
  split
  · exact h.mono
  simp only
  split
  · exact h.mono
  · exact { h.mono with paddingInjected := hinjected }

namespace Follows

/-- No request counts anything twice. -/
theorem within (h : Follows history t n l g) (ht : t < 2 ^ 47) (hn : n.stats.Within t)
    (request : Request) : (Exchange.after ⟨n, request⟩).stats.Within (t + 1) := by
  cases request with
  | forward p =>
    rw [Exchange.after_forward, receive_stats (h.nextOutgoing ht)]
    cases hdue : n.due p with
    | false =>
      rw [facing_of_not_due hdue]
      exact hn.tally ht _ _
    | true =>
      have hrestarts := Stats.toNat_add_one_le hn.restarts ht
      rw [facing_of_due hdue]
      simp only [Stats.tally_restarts]
      exact { hn.tally ht _ _ with restarts := hrestarts }
  | inject count => exact reserve_within hn count
  | restart => exact hn.mono

theorem consistent_forward (h : Follows history t n l g) (ht : t < 2 ^ 47) (p : Packet) :
    Refusal.Consistent (n.receive p).value.2 := by
  intro cause hres
  cases h.arrival ht p with
  | ahead e hrec _ _ _ hleads =>
    rw [hrec] at hres
    cases hp : p.isPaddingOnly with
    | true =>
      rw [(hleads.padding hp).1] at hres
      cases hres
    | false =>
      rw [(hleads.content hp).1] at hres
      cases hres
  | behind head e hhead he hrec _ _ =>
    have hm := h.source (some p.ssrc)
    obtain ⟨-, -, hrefused, -⟩ := hm.place_behind ht p hhead he
    rw [hrec] at hres
    rcases hrefused _ hres with hr | hr | hr <;> cases hr
  | beforeStart head hhead hrec _ _ =>
    rw [hrec] at hres
    cases hres

theorem consistent (h : Follows history t n l g) (ht : t < 2 ^ 47) (request : Request) :
    (Exchange.reply ⟨n, request⟩).Consistent := by
  cases request with
  | forward p => exact (Exchange.consistent_forward_iff n p).mpr (h.consistent_forward ht p)
  | inject count =>
    rw [(h.booked ht (.inject count)).injected count rfl]
    intro cause hres
    cases hres
  | restart => trivial

theorem extended_le (h : Follows history t n l g) (ht : t < 2 ^ 47) (p : Packet)
    (he : Exchange.extended ⟨n, .forward p⟩ = some e) :
    e.toNat + 2 ^ 15 ≤ 2 ^ 16 + 2 ^ 15 * (t + 1) := by
  have hsame : ∀ {e' : BitVec 64}, Exchange.extended ⟨n, .forward p⟩ = some e' → e' = e :=
    fun he' => Option.some.inj (he'.symm.trans he)
  obtain ⟨l', hnext⟩ := (h.booked ht (.forward p)).follows
  cases h.arrival ht p with
  | ahead e' hrec hext _ _ hleads =>
    obtain rfl := hsame hext
    refine (hnext.led e' ?_).far
    rw [Exchange.after_forward, hrec]
    exact hleads.head
  | behind head e' hhead hle hrec hext _ =>
    obtain rfl := hsame hext
    have := (h.led head hhead).far
    omega
  | beforeStart head hhead hrec hext _ =>
    rw [hext] at he
    cases he

theorem fits (h : Follows history t n l g) (ht : t < 2 ^ 47) (hn : n.stats.Within t)
    (request : Request) : Exchange.Fits ⟨n, request⟩ := by
  have hhead : ∀ head, n.head = some head → head.toNat < 2 ^ 63 := by
    intro head hh
    have := (h.led head hh).far
    omega
  constructor
  · intro p highest hp hhighest _
    have hdistance := (Serial.distance p.sequenceNumber (highest.setWidth 16)).isLt
    cases hdue : n.due p with
    | true =>
      rw [facing_of_due hdue] at hhighest
      cases hhighest
    | false =>
      rw [facing_of_not_due hdue] at hhighest
      have := hhead highest (h.highest.symm.trans hhighest)
      omega
  · intro e he
    cases request with
    | forward p =>
      have := h.extended_le ht p he
      omega
    | inject count => cases he
    | restart => cases he
  · intro head hh
    have := hhead head hh
    omega
  · have hcounter : ∀ {counter : UInt64}, counter.toNat ≤ t → counter.toNat + 1 < 2 ^ 64 := by
      intro counter hle
      omega
    intro counter hmem
    simp only [List.mem_cons, List.not_mem_nil, or_false] at hmem
    rcases hmem with rfl | rfl | rfl | rfl | rfl | rfl
    · exact hcounter hn.forwarded
    · exact hcounter hn.outOfOrder
    · exact hcounter hn.paddingDropped
    · exact hcounter hn.rejected
    · exact hcounter hn.duplicate
    · exact hcounter hn.restarts
  · intro count _
    have hcount := count.isLt
    have := hn.paddingInjected
    simp only
    omega

end Follows

theorem within_run (history : ℕ) (requests : List Request) (hlen : requests.length ≤ 2 ^ 47) :
    ((new history).after requests).stats.Within requests.length := by
  induction requests using List.reverseRecOn with
  | nil => exact ⟨le_rfl, le_rfl, le_rfl, le_rfl, le_rfl, le_rfl, le_rfl⟩
  | append_singleton rest request ih =>
    rw [List.length_append, List.length_singleton] at hlen
    obtain ⟨l, g, h⟩ := follows_run history rest (by omega)
    rw [after_concat, List.length_append, List.length_singleton]
    exact h.within (by omega) (ih (by omega)) request

/-- Every exchange of a run on a new numbering stays within 64 bits and within the history. -/
theorem consistent_of_mem {requests : List Request} (hlen : requests.length < 2 ^ 47) {x : Exchange}
    (hx : x ∈ (new history).exchanges requests) : x.Fits ∧ x.reply.Consistent := by
  obtain ⟨earlier, hlt, hbefore⟩ := exists_before_eq hx
  obtain ⟨l, g, h⟩ := follows_run history earlier (by omega)
  have hwithin := within_run history earlier (by omega)
  rw [← hbefore] at h hwithin
  exact ⟨h.fits (by omega) hwithin x.request, h.consistent (by omega) x.request⟩

end Numbering

namespace Registry

/-- A numbering never replies with an inconsistency, exceeds 64 bits or raises an alarm, and no
registry that passes requests on to such numberings raises one. -/
theorem no_alarm :
    (∀ (history : ℕ) (requests : List Numbering.Request), requests.length < 2 ^ 47 →
      (∀ x ∈ (Numbering.new history).exchanges requests, x.Fits ∧ x.reply.Consistent) ∧
        ((Numbering.new history).serveAll requests).Calm) ∧
    ∀ (settings : Settings) (requests : List Request),
      (∀ h, ((new settings).value.calls h requests).length < 2 ^ 47) →
        (new settings >>= (·.serveAll requests)).Calm := by
  constructor
  · intro history requests hlen
    have hall : ∀ x ∈ (Numbering.new history).exchanges requests, x.Fits ∧ x.reply.Consistent :=
      fun x hx => Numbering.consistent_of_mem hlen hx
    exact ⟨hall, Numbering.calm_serveAll _ requests fun x hx => (hall x hx).2⟩
  · intro settings requests hlen
    refine (calm_new settings).bind (calm_serveAll (.new settings) requests fun h x hx => ?_)
    exact (Numbering.consistent_of_mem (hlen h) hx).2

/-- Numbers are left out and reserved, and both tracks start anew. -/
private def restless : List Request :=
  [.forward ⟨"a"⟩ ⟨1, 10, 0, [1], 0⟩, .forward ⟨"b"⟩ ⟨9, 500, 0, [1], 0⟩, .forward ⟨"a"⟩ ⟨1, 11, 0, [], 0⟩,
    .via ⟨0⟩ (.inject 2), .forward ⟨"a"⟩ ⟨2, 7, 0, [1], 0⟩, .restart ⟨"b"⟩,
    .forward ⟨"b"⟩ ⟨9, 40000, 0, [1], 0⟩]

theorem no_alarm_restless :
    let requests := (new {}).value.calls ⟨0⟩ restless
    requests.length = 4 ∧
      (∀ x ∈ (Numbering.new 4).exchanges requests, x.Fits ∧ x.reply.Consistent) ∧
      (∀ h, ((new {}).value.calls h restless).length < 2 ^ 47) ∧
      (new {} >>= (·.serveAll restless)).events.length = 8 ∧
      (new {} >>= (·.serveAll restless)).Calm := by
  intro requests
  have hcount : requests.length = 4 := by decide
  have hshort : requests.length < 2 ^ 47 := by
    rw [hcount]
    decide
  have hlen : ∀ h, ((new {}).value.calls h restless).length < 2 ^ 47 := fun h =>
    (calls_length_le _ h restless).trans_lt (by decide)
  exact ⟨hcount, (no_alarm.1 4 requests hshort).1, hlen, by decide, no_alarm.2 {} restless hlen⟩

end Registry

end Renumber
