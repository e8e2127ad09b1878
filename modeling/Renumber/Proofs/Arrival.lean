import Renumber.Proofs.Following

/-! What becomes of a packet that meets a state with books: it takes the lead, it comes from behind
the head, or its number lies before zero. -/
namespace Renumber.Numbering

/-- The three fates of a packet, each with the state in which it is placed. -/
inductive Arrival (history t : ℕ) (n : Numbering) (g : Ledger) (p : Packet) : Prop
  /-- The packet is the first one of its stream or ahead of the head. No number up to the upcoming
  one is used again. -/
  | ahead (e : BitVec 64)
      (received : (n.receive p).value =
        (place { n.facing p with unwrapper := ⟨some e⟩ } p e).value)
      (extended : Exchange.extended ⟨n, .forward p⟩ = some e)
      (passes : ∀ head, n.head = some head → n.due p = false →
        head.toNat < e.toNat ∧ g.meet ⟨n, .forward p⟩ = g)
      (continues : ∀ next, n.upcoming = some next →
        next.toNat ≤ (g.meet ⟨n, .forward p⟩).slot e.toNat)
      (leads : Leads history (t + 1) { n.facing p with unwrapper := ⟨some e⟩ } p e
        (g.meet ⟨n, .forward p⟩))
  /-- The packet repeats the head, or comes late. -/
  | behind (head e : BitVec 64) (hhead : n.head = some head) (he : e.toNat ≤ head.toNat)
      (received : (n.receive p).value = (place { n with ssrc := some p.ssrc } p e).value)
      (extended : Exchange.extended ⟨n, .forward p⟩ = some e)
      (same : g.meet ⟨n, .forward p⟩ = g)
  | beforeStart (head : BitVec 64) (hhead : n.head = some head)
      (received : (n.receive p).value = ({ n with
        ssrc := some p.ssrc
        stats := { n.stats with rejected := n.stats.rejected + 1 } },
        .error (.beforeStart p.sequenceNumber)))
      (extended : Exchange.extended ⟨n, .forward p⟩ = none)
      (same : g.meet ⟨n, .forward p⟩ = g)

variable {history t : ℕ} {n : Numbering} {l : Line} {g : Ledger} {p : Packet} {head e : BitVec 64}

theorem arrival_opening (hnext : n.nextOutgoing.value = .ok n.upcoming) (ht : t < 2 ^ 47) {s : ℤ}
    (hopen : ∀ head, n.head = some head → n.due p = true)
    (hhead : (n.facing p).head = none) (hu : (n.facing p).unwrapper.highest = none)
    (hkept : Kept history (n.facing p).offsets ⟨max history 1, [], 0, -s⟩
      (g.meet ⟨n, .forward p⟩))
    (hmeet : g.meet ⟨n, .forward p⟩ = { first := some (p.sequenceNumber.toNat : ℤ), shift := s })
    (hcontinues : ∀ next, n.upcoming = some next → next.toNat ≤ p.sequenceNumber.toNat + s)
    (hpos : 0 ≤ p.sequenceNumber.toNat + s)
    (hnear : p.sequenceNumber.toNat + s + 1 ≤ 2 ^ 16 * (t + 2)) :
    Arrival history t n g p := by
  have hwide := toNat_widen p.sequenceNumber
  have hextend := Unwrapper.extend_of_none hu p.sequenceNumber
  have hslot : (g.meet ⟨n, .forward p⟩).slot p.sequenceNumber.toNat =
      p.sequenceNumber.toNat + s := by
    simp [hmeet, Ledger.slot]
  have hspans : (g.meet ⟨n, .forward p⟩).Spans p.sequenceNumber.toNat p.sequenceNumber.toNat :=
    Ledger.Spans.blank (by rw [hmeet]) (by rw [hmeet]) _
  have hleads : Leads history (t + 1)
      { n.facing p with unwrapper := ⟨some (p.sequenceNumber.setWidth 64)⟩ } p
      (p.sequenceNumber.setWidth 64) (g.meet ⟨n, .forward p⟩) := by
    apply leads (l := ⟨max history 1, [], 0, -s⟩) (f := p.sequenceNumber.toNat)
    · exact hkept
    · intro head hh
      rw [show _ = none from hhead] at hh
      cases hh
    · rfl
    · exact Int.natCast_nonneg _
    · omega
    · omega
    · rw [hmeet]
    · omega
    · omega
    · rw [hwide]
      exact hspans
    · rw [hslot]
      exact hpos
    · rw [hwide, hslot]
      omega
  refine .ahead (p.sequenceNumber.setWidth 64) ?_ ?_ ?_ ?_ hleads
  · rw [value_receive hnext, hextend]
  · rw [Exchange.extended_forward, hextend]
  · intro head hh hdue
    rw [hopen head hh] at hdue
    cases hdue
  · rw [hwide, hslot]
    exact hcontinues

namespace Follows

/-- A packet that starts the incoming numbers anew opens new books, which continue the old ones. -/
theorem arrival_of_due (h : Follows history t n l g) (ht : t < 2 ^ 47) (hdue : n.due p = true) :
    Arrival history t n g p := by
  have hcap : n.offsets.capacity = max history 1 := by
    rw [h.kept.offsets]
    exact h.kept.capacity
  have hface := facing_of_due hdue
  have hmeet := Ledger.meet_of_due g hdue
  have hshift : (n.upcoming.map (p.sequenceNumber.setWidth 64 - ·)).getD 0 =
      BitVec.ofInt 64 (-Exchange.shift ⟨n, .forward p⟩) := by
    cases hup : n.upcoming with
    | none => simp [Exchange.shift_of_none p hup]
    | some next =>
      simp only [Exchange.shift_of_some p hup, Option.map_some, Option.getD_some, neg_sub,
        Serial.ofInt_sub, BitVec.ofInt_natCast, BitVec.ofNat_toNat, BitVec.setWidth_eq]
  have hkept := Kept.blank (g := g.meet ⟨n, .forward p⟩) hcap (by rw [hmeet]) (by rw [hmeet])
    (s := Exchange.shift ⟨n, .forward p⟩) (by rw [hmeet])
  rw [← hshift] at hkept
  have hbounds : 0 ≤ p.sequenceNumber.toNat + Exchange.shift ⟨n, .forward p⟩ ∧
      p.sequenceNumber.toNat + Exchange.shift ⟨n, .forward p⟩ + 1 ≤ 2 ^ 16 * ((t : ℤ) + 2) := by
    cases hup : n.upcoming with
    | none =>
      rw [Exchange.shift_of_none p hup]
      omega
    | some next =>
      obtain ⟨-, -, -, hle⟩ := h.toNat_upcoming ht hup
      rw [Exchange.shift_of_some p hup]
      omega
  refine arrival_opening (h.nextOutgoing ht) ht (fun _ _ => hdue) ?_ ?_ ?_ hmeet ?_ hbounds.1
    hbounds.2
  · rw [hface]
  · rw [hface]
  · rw [hface]
    exact hkept
  · intro next hup
    rw [Exchange.shift_of_some p hup]
    omega

theorem meet_of_not_due (h : Follows history t n l g) (hdue : n.due p = false)
    (hhead : n.head = some head) : g.meet ⟨n, .forward p⟩ = g := by
  obtain ⟨f, hfirst, -⟩ := (h.led head hhead).first
  have hr : Exchange.rebases ⟨n, .forward p⟩ = false := hdue
  rw [Ledger.meet_of_not_rebases g hr, hfirst, Option.some_or, ← hfirst]

theorem arrival_ahead (h : Follows history t n l g) (ht : t < 2 ^ 47) (hdue : n.due p = false)
    (hhead : n.head = some head)
    (hextend : n.unwrapper.extend p.sequenceNumber = (some e, ⟨some e⟩))
    (hlt : head.toNat < e.toNat) (hnext : e.toNat < head.toNat + 2 ^ 15) :
    Arrival history t n g p := by
  have hface := facing_of_not_due hdue
  have hled := h.led head hhead
  obtain ⟨f, hfirst, h0, hf, hspans, hpos⟩ := hled.first
  have hstart := hled.start
  have hfar := hled.far
  have hnear := hled.near
  have hmeet := h.meet_of_not_due hdue hhead
  have hspans' : g.Spans f e.toNat := hspans.advance (by omega) (by omega)
  have hslot := hspans.slot_of_ge (show (head.toNat + 1 : ℤ) ≤ e.toNat by omega)
  have hahead : ∀ head', n.head = some head' → head'.toNat < e.toNat := by
    intro head' hh
    obtain rfl := Option.some.inj (hhead.symm.trans hh)
    omega
  have hleads : Leads history (t + 1) { n.facing p with unwrapper := ⟨some e⟩ } p e
      (g.meet ⟨n, .forward p⟩) := by
    rw [hmeet, hface]
    apply leads (l := l) (f := f)
    · exact h.kept
    · exact hahead
    · rfl
    · omega
    · omega
    · omega
    · exact hfirst
    · exact h0
    · omega
    · exact hspans'
    · exact hpos
    · omega
  refine .ahead e ?_ ?_ (fun head' hh _ => ⟨hahead head' hh, hmeet⟩) ?_ hleads
  · rw [value_receive (h.nextOutgoing ht), hface, hextend]
  · rw [Exchange.extended_forward, hface, hextend]
  · intro next hup
    obtain ⟨head', hh, hread, -⟩ := h.toNat_upcoming ht hup
    obtain rfl := Option.some.inj (hhead.symm.trans hh)
    rw [hmeet, hread]
    omega

theorem arrival_next (h : Follows history t n l g) (ht : t < 2 ^ 47) (hdue : n.due p = false)
    (hhead : n.head = some head) : Arrival history t n g p := by
  have hrec := value_receive (h.nextOutgoing ht) p
  have hface := facing_of_not_due hdue
  have hfar := (h.led head hhead).far
  have hmeet := h.meet_of_not_due hdue hhead
  have hext : Exchange.extended ⟨n, .forward p⟩ = (n.unwrapper.extend p.sequenceNumber).1 := by
    rw [Exchange.extended_forward, hface]
  rw [hface] at hrec
  have hhighest : n.unwrapper.highest = some head := h.highest.trans hhead
  rcases Unwrapper.extend_cases hhighest (by omega) p.sequenceNumber with
    ⟨e, hextend, hle, hlt⟩ | ⟨e, hextend, hlt⟩ | hextend
  · by_cases he : e.toNat = head.toNat
    · obtain rfl := BitVec.eq_of_toNat_eq he
      -- the unwrapper has seen the head already
      have hsame : (⟨some e⟩ : Unwrapper) = n.unwrapper := by rw [← hhighest]
      rw [hextend, hsame] at hrec
      rw [hextend] at hext
      exact .behind e e hhead le_rfl hrec hext hmeet
    · exact h.arrival_ahead ht hdue hhead hextend (by omega) hlt
  · rw [hextend] at hrec hext
    exact .behind head e hhead (by omega) hrec hext hmeet
  · rw [hextend] at hrec hext
    exact .beforeStart head hhead hrec hext hmeet

/-- A packet that meets a state with books has one of the three fates. -/
theorem arrival (h : Follows history t n l g) (ht : t < 2 ^ 47) (p : Packet) :
    Arrival history t n g p := by
  cases hdue : n.due p with
  | true => exact h.arrival_of_due ht hdue
  | false =>
    cases hhead : n.head with
    | some head => exact h.arrival_next ht hdue hhead
    | none =>
      obtain ⟨-, hoff, rfl⟩ := h.fresh hhead
      have hface := facing_of_not_due hdue
      have hu : (n.facing p).unwrapper.highest = none := by
        rw [hface, h.highest, hhead]
      have hext : Exchange.extended ⟨n, .forward p⟩ = some (p.sequenceNumber.setWidth 64) := by
        rw [Exchange.extended_forward, Unwrapper.extend_of_none hu]
      have hmeet : Ledger.meet {} ⟨n, .forward p⟩ =
          { first := some (p.sequenceNumber.toNat : ℤ), shift := 0 } := by
        have hr : Exchange.rebases ⟨n, .forward p⟩ = false := hdue
        rw [Ledger.meet_of_not_rebases _ hr, hext, Option.map_some, toNat_widen]
        rfl
      have hkept := Kept.new (g := Ledger.meet {} ⟨n, .forward p⟩) history (by rw [hmeet])
        (by rw [hmeet]) (by rw [hmeet])
      refine arrival_opening (h.nextOutgoing ht) ht ?_ ?_ hu ?_ hmeet ?_ (by omega) (by omega)
      · intro head hh
        rw [hhead] at hh
        cases hh
      · rw [hface, hhead]
      · rw [hface, hoff]
        exact hkept
      · intro next hup
        rw [upcoming_of_none hhead] at hup
        cases hup

end Follows

end Renumber.Numbering
