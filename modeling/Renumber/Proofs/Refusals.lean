import Renumber.Proofs.Accounting
import Renumber.Proofs.Recovery
import Renumber.Proofs.Restart

/-! A packet that is refused or comes late changes the counters of a numbering and nothing else. -/
namespace Renumber

namespace Unwrapper

variable {u : Unwrapper} {highest e : BitVec 64} {s : BitVec 16}

/-- Extended numbers keep the low bits with which they came. -/
theorem setWidth_of_extend (h : (u.extend s).1 = some e) : e.setWidth 16 = s := by
  cases hu : u.highest with
  | none =>
    rw [extend_of_none hu] at h
    obtain rfl := Option.some.inj h
    rw [BitVec.setWidth_setWidth_of_le _ (by decide), BitVec.setWidth_eq]
  | some highest =>
    have hnear := (near_iff highest s _).mpr rfl
    rw [extend_of_near hu hnear] at h
    split at h
    · cases h
    · obtain rfl := Option.some.inj h
      rw [Serial.setWidth_ofInt]
      exact hnear.bits

theorem extend_highest (hu : u.highest = some highest) :
    u.extend (highest.setWidth 16) = (some highest, u) := by
  have hnear : Near highest (highest.setWidth 16) highest.toNat := by
    constructor
    · omega
    · omega
    · rw [← Serial.setWidth_ofInt, Serial.ofInt_toNat]
  have hsame : (⟨some highest⟩ : Unwrapper) = u := by rw [← hu]
  rw [extend_of_near hu hnear, if_neg (by omega), max_self, Serial.ofInt_toNat, hsame]

end Unwrapper

namespace Stats

variable {answer : Except Refusal Placement}

theorem tally_of_rejected (s : Stats) (head : Option (BitVec 64))
    (h : Fate.of answer = some .rejected) :
    s.tally head answer = { s with rejected := s.rejected + 1 } := by
  rcases answer with refusal | spot
  · cases refusal <;> simp_all [tally, Fate.of, Refusal.fate]
  · cases h

theorem tally_of_duplicate (s : Stats) (head : Option (BitVec 64))
    (h : Fate.of answer = some .duplicate) :
    s.tally head answer = { s with duplicate := s.duplicate + 1 } := by
  rcases answer with refusal | spot
  · cases refusal <;> simp_all [tally, Fate.of, Refusal.fate]
  · cases h

end Stats

namespace Numbering

/-- Where there is a head, the source of the last packet is known. -/
def Sourced (n : Numbering) : Prop := n.head ≠ none → n.ssrc ≠ none

/-- The answer to a packet that takes the lead. -/
def Leading (answer : Except Refusal Placement) : Prop :=
  answer = .error .paddingDropped ∨ ∃ spot, answer = .ok spot

variable {history t : ℕ} {n : Numbering} {l : Line} {g : Ledger} {p : Packet} {head e : BitVec 64}

theorem Leading.fate {answer : Except Refusal Placement} (h : Leading answer) :
    Fate.of answer ≠ some .rejected ∧ Fate.of answer ≠ some .duplicate := by
  rcases h with rfl | ⟨spot, rfl⟩ <;> simp [Fate.of, Refusal.fate]

theorem Leads.leading (h : Leads history t n p e g) : Leading (n.place p e).value.2 := by
  cases hp : p.isPaddingOnly with
  | true => exact .inl (h.padding hp).1
  | false => exact .inr ⟨_, (h.content hp).1⟩

theorem Sourced.after (h : n.Sourced) (hnext : n.nextOutgoing.value = .ok n.upcoming)
    (request : Request) : (Exchange.after ⟨n, request⟩).Sourced := by
  have hfaces : Upstream.Faces ⟨n.restartPending, n.ssrc⟩ n := ⟨rfl, rfl⟩
  have hssrc := (hfaces.next hnext request).ssrc
  unfold Sourced
  rw [hssrc]
  cases request with
  | forward p => exact fun _ => Option.some_ne_none _
  | inject count =>
    rw [Exchange.after_inject, reserve_head]
    exact h
  | restart => exact h

theorem sourced_run (history : ℕ) (requests : List Request) (hlen : requests.length ≤ 2 ^ 47) :
    ((new history).after requests).Sourced := by
  induction requests using List.reverseRecOn with
  | nil => exact fun hhead => absurd rfl hhead
  | append_singleton rest request ih =>
    rw [List.length_append, List.length_singleton] at hlen
    obtain ⟨l, g, h⟩ := follows_run history rest (by omega)
    rw [after_concat]
    exact (ih (by omega)).after (h.nextOutgoing (by omega)) request

/-- Within a stream, a packet comes from the source of the last one. -/
theorem Sourced.ssrc (h : n.Sourced) (hdue : n.due p = false) (hhead : n.head = some head) :
    n.ssrc = some p.ssrc := by
  rw [due, Bool.or_eq_false_iff, Option.any_eq_false] at hdue
  cases hssrc : n.ssrc with
  | none => exact absurd hssrc (h (by simp [hhead]))
  | some source =>
    have hsame : source = p.ssrc := by simpa using hdue.2 source hssrc
    rw [hsame]

theorem place_of_head_none (hhead : n.head = none) (p : Packet) (e : BitVec 64) :
    Leading (n.place p e).value.2 ∨ ∃ cause, (n.place p e).value.2 = .error (.inconsistent cause) := by
  rw [value_place, hhead, if_neg (by simp), if_neg (by simp)]
  split
  · rw [value_dropPadding]
    split
    · exact .inr ⟨_, rfl⟩
    · exact .inl (.inl rfl)
  · rw [value_placeHead]
    split
    · exact .inr ⟨_, rfl⟩
    · exact .inl (.inr ⟨_, rfl⟩)

theorem head_of_duplicate {k : BitVec 64} (h : (n.place p e).value.2 = .error (.duplicate k)) :
    n.head = some k ∧ e = k := by
  rw [value_place] at h
  split at h
  · next hhead =>
    cases h
    exact ⟨hhead, rfl⟩
  split at h
  · rw [value_placeLate] at h
    split at h <;> cases h
  split at h
  · rw [value_dropPadding] at h
    split at h <;> cases h
  · rw [value_placeHead] at h
    split at h <;> cases h

theorem extended_of_not_due (hdue : n.due p = false)
    (hext : Exchange.extended ⟨n, .forward p⟩ = some e) :
    (n.unwrapper.extend p.sequenceNumber).1 = some e := by
  rwa [Exchange.extended_forward, facing_of_not_due hdue] at hext

namespace Follows

/-- A packet that starts the incoming numbers anew is not refused. -/
theorem leading_of_due (h : Follows history t n l g) (ht : t < 2 ^ 47) (hdue : n.due p = true) :
    Leading (n.receive p).value.2 := by
  have hconsistent := h.consistent_forward ht p
  rw [value_receive_of_due hdue, h.nextOutgoing ht] at hconsistent ⊢
  refine (place_of_head_none rfl p _).resolve_right ?_
  rintro ⟨cause, hcause⟩
  exact hconsistent cause hcause

/-- Within a stream, a packet that does not take the lead changes the counters alone. -/
theorem receive_stays (h : Follows history t n l g) (ht : t < 2 ^ 47) (hsourced : n.Sourced)
    (hdue : n.due p = false) :
    (n.receive p).value.1 = { n with stats := n.stats.tally n.head (n.receive p).value.2 } ∨
      Leading (n.receive p).value.2 ∧ ∃ e, Exchange.extended ⟨n, .forward p⟩ = some e ∧
        ∀ head, n.head = some head → head.toNat < e.toNat := by
  cases h.arrival ht p with
  | ahead e hrec hext hpasses _ hleads =>
    right
    rw [hrec]
    exact ⟨hleads.leading, e, hext, fun head hhead => (hpasses head hhead hdue).1⟩
  | behind head e hhead he hrec _ _ =>
    left
    -- the source is set anew, but to what it was
    have hsame : { n with ssrc := some p.ssrc } = n := by rw [← hsourced.ssrc hdue hhead]
    rw [hsame] at hrec
    obtain ⟨stats, hafter, -⟩ := h.place_behind ht p hhead he
    have hstats := place_stats n p e
    rw [hrec, ← hstats, hafter]
  | beforeStart head hhead hrec _ _ =>
    left
    rw [hrec, ← hsourced.ssrc hdue hhead]
    rfl

/-- A refused packet changes the counters alone. -/
theorem receive_refused (h : Follows history t n l g) (ht : t < 2 ^ 47) (hsourced : n.Sourced)
    (hrefused : ¬Leading (n.receive p).value.2) :
    (n.receive p).value.1 = { n with stats := n.stats.tally n.head (n.receive p).value.2 } := by
  cases hdue : n.due p with
  | true => exact absurd (h.leading_of_due ht hdue) hrefused
  | false => exact (h.receive_stays ht hsourced hdue).resolve_right fun hlead => hrefused hlead.1

/-- A late packet that is forwarded changes the counters alone. -/
theorem receive_late_ok (h : Follows history t n l g) (ht : t < 2 ^ 47) (hsourced : n.Sourced)
    (hdue : n.due p = false) (hhead : n.head = some head)
    (hext : Exchange.extended ⟨n, .forward p⟩ = some e) (hlt : e < head) {spot : Placement}
    (hok : (n.receive p).value.2 = .ok spot) :
    (n.receive p).value.1 = { n with stats := { n.stats with
      forwarded := n.stats.forwarded + 1
      outOfOrder := n.stats.outOfOrder + 1 } } := by
  have hstays := (h.receive_stays ht hsourced hdue).resolve_right fun hlead => by
    obtain ⟨-, e', hext', hahead⟩ := hlead
    obtain rfl := Option.some.inj (hext.symm.trans hext')
    have := hahead head hhead
    rw [BitVec.lt_def] at hlt
    omega
  have hincoming : spot.incoming = e := by
    have hext' := extended_of_ok (h.nextOutgoing ht) hok
    exact (Option.some.inj (hext.symm.trans hext')).symm
  rw [hstays, hok, Stats.tally, hhead, hincoming, Option.any_some, if_pos (decide_eq_true hlt)]

theorem receive_stats_of_due (h : Follows history t n l g) (ht : t < 2 ^ 47)
    (hdue : n.due p = true) {spot : Placement} (hok : (n.receive p).value.2 = .ok spot) :
    (n.receive p).value.1.stats = { n.stats with
      forwarded := n.stats.forwarded + 1
      restarts := n.stats.restarts + 1 } := by
  rw [receive_stats (h.nextOutgoing ht), hok, facing_of_due hdue]
  rfl

/-- The repeats of the head are the packets with its low bits, unless they start a new stream. -/
theorem duplicate_iff (h : Follows history t n l g) (ht : t < 2 ^ 47) (k : BitVec 64) :
    (n.receive p).value.2 = .error (.duplicate k) ↔
      n.due p = false ∧ n.head = some k ∧ p.sequenceNumber = k.setWidth 16 := by
  constructor
  · intro hres
    have hnot : ¬Leading (n.receive p).value.2 := by
      intro hleading
      rw [hres] at hleading
      exact hleading.fate.2 rfl
    cases hdue : n.due p with
    | true => exact absurd (h.leading_of_due ht hdue) hnot
    | false =>
      refine ⟨rfl, ?_⟩
      cases h.arrival ht p with
      | ahead e hrec _ _ _ hleads =>
        rw [hrec] at hnot
        exact absurd hleads.leading hnot
      | behind head e hhead he hrec hext _ =>
        rw [hrec] at hres
        obtain ⟨hhead', rfl⟩ := head_of_duplicate hres
        exact ⟨hhead', (Unwrapper.setWidth_of_extend (extended_of_not_due hdue hext)).symm⟩
      | beforeStart head hhead hrec _ _ =>
        rw [hrec] at hres
        cases hres
  · rintro ⟨hdue, hhead, hlow⟩
    rw [value_receive_of_not_due hdue, hlow, Unwrapper.extend_highest (h.highest.trans hhead)]
    simp only
    rw [value_place, if_pos hhead]

end Follows

/-- The numbering of a run is left alone by packets that are refused or late. A refusal changes the
state in one counter, which goes up by one; so does a packet that is forwarded from behind the head,
in two counters, unless it starts a new stream: then it counts as forwarded and as a restart. The
head is repeated by the packets with its low bits alone, and a packet that starts a new stream is
not refused. -/
theorem receive_behind_counts (history : ℕ) (requests : List Request)
    (hlen : requests.length < 2 ^ 47) (p : Packet) :
    let n := (new history).after requests
    let answer := (n.forward p).value.2
    let n' := (n.forward p).value.1
    (Fate.of answer = some .rejected →
        n' = { n with stats := { n.stats with rejected := n.stats.rejected + 1 } }) ∧
      (Fate.of answer = some .duplicate →
        n' = { n with stats := { n.stats with duplicate := n.stats.duplicate + 1 } }) ∧
      (∀ q k head, answer = .ok q → Exchange.extended ⟨n, .forward p⟩ = some k →
        n.head = some head → k < head →
          (n.due p = false → n' = { n with stats := { n.stats with
            forwarded := n.stats.forwarded + 1
            outOfOrder := n.stats.outOfOrder + 1 } }) ∧
          (n.due p = true → n'.stats = { n.stats with
            forwarded := n.stats.forwarded + 1
            restarts := n.stats.restarts + 1 })) ∧
      (∀ counter ∈ [n.stats.forwarded, n.stats.outOfOrder, n.stats.rejected, n.stats.duplicate,
        n.stats.restarts], (counter + 1).toNat = counter.toNat + 1) ∧
      (∀ k, answer = .error (.duplicate k) ↔
        n.due p = false ∧ n.head = some k ∧ p.sequenceNumber = k.setWidth 16) ∧
      (n.due p = true → answer = .error .paddingDropped ∨ ∃ q, answer = .ok q) := by
  intro n answer n'
  obtain ⟨l, g, h⟩ := follows_run history requests hlen.le
  have hsourced := sourced_run history requests hlen.le
  have hfits := (h.fits hlen (within_run history requests hlen.le) (.forward p)).counters
  have hstate : n' = (n.receive p).value.1 := rfl
  have hfate : Fate.of answer = Fate.of (n.receive p).value.2 := Fate.of_map ..
  refine ⟨?_, ?_, ?_, ?_, ?_, ?_⟩
  · intro hrejected
    rw [hfate] at hrejected
    have hstays := h.receive_refused hlen hsourced fun hlead => hlead.fate.1 hrejected
    rw [hstate, hstays, Stats.tally_of_rejected _ _ hrejected]
  · intro hduplicate
    rw [hfate] at hduplicate
    have hstays := h.receive_refused hlen hsourced fun hlead => hlead.fate.2 hduplicate
    rw [hstate, hstays, Stats.tally_of_duplicate _ _ hduplicate]
  · intro q k head hq hext hhead hlt
    obtain ⟨spot, hspot⟩ := forward_eq_ok_iff.mp ⟨q, hq⟩
    exact ⟨fun hdue => h.receive_late_ok hlen hsourced hdue hhead hext hlt hspot,
      fun hdue => h.receive_stats_of_due hlen hdue hspot⟩
  · intro counter hcounter
    have hlt : counter.toNat + 1 < 2 ^ 64 := by
      apply hfits
      simp only [List.mem_cons, List.not_mem_nil, or_false] at hcounter ⊢
      tauto
    rw [UInt64.toNat_add, UInt64.toNat_one, Nat.mod_eq_of_lt hlt]
  · intro k
    rw [forward_eq_error_iff, h.duplicate_iff hlen k]
  · intro hdue
    rw [forward_eq_error_iff, forward_eq_ok_iff]
    exact h.leading_of_due hlen hdue

/-- A restart is pending at number 7, after number 100 of the old stream. -/
private def renewing : List Request := [.forward ⟨1, 100, 0, [0x61], 0⟩, .restart]

/-- Number 7 lies below the head and is forwarded, but is not counted as out of order. -/
theorem stats_ne_renewing :
    let n := (new 16).after renewing
    let answer := (n.forward ⟨1, 7, 0, [0x61], 0⟩).value.2
    let n' := (n.forward ⟨1, 7, 0, [0x61], 0⟩).value.1
    answer = .ok ⟨1, 101, 0, [0x61], 0⟩ ∧
      Exchange.extended ⟨n, .forward ⟨1, 7, 0, [0x61], 0⟩⟩ = some 7 ∧ n.head = some 100 ∧
      n'.stats ≠ { n.stats with
        forwarded := n'.stats.forwarded
        outOfOrder := n'.stats.outOfOrder } ∧
      n'.stats.outOfOrder = n.stats.outOfOrder := by
  decide

/-- Number 11 is left out. -/
private def curtailed : List Request :=
  [.forward ⟨7, 10, 0, [1], 0⟩, .forward ⟨7, 11, 0, [], 0⟩, .forward ⟨7, 12, 0, [1], 0⟩]

theorem receive_behind_counts_curtailed :
    (((new 4).after curtailed).forward ⟨7, 11, 0, [1], 0⟩).value.1 =
        { (new 4).after curtailed with stats := {
          forwarded := 2
          paddingDropped := 1
          rejected := 1 } } ∧
      (((new 4).after curtailed).forward ⟨7, 10, 0, [1], 0⟩).value.1 =
        { (new 4).after curtailed with stats := {
          forwarded := 3
          outOfOrder := 1
          paddingDropped := 1 } } ∧
      (((new 4).after curtailed).forward ⟨7, 12, 0, [1], 0⟩).value.2 = .error (.duplicate 12) := by
  have hlen : curtailed.length < 2 ^ 47 := by decide
  obtain ⟨hrejected, -⟩ := receive_behind_counts 4 curtailed hlen ⟨7, 11, 0, [1], 0⟩
  obtain ⟨-, -, hlate, -⟩ := receive_behind_counts 4 curtailed hlen ⟨7, 10, 0, [1], 0⟩
  obtain ⟨-, -, -, -, hduplicate, -⟩ := receive_behind_counts 4 curtailed hlen ⟨7, 12, 0, [1], 0⟩
  exact ⟨hrejected (by decide),
    (hlate ⟨7, 10, 0, [1], 0⟩ 10 12 (by decide) (by decide) (by decide) (by decide)).1 (by decide),
    (hduplicate 12).mpr (by decide)⟩

end Numbering

end Renumber
