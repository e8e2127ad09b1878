import Renumber.Proofs.Steps

/-! What is handed out in order only ever goes up, also from one stream to the next. -/
namespace Renumber.Numbering

namespace Exchange

/-- The extended outgoing numbers handed out at the head: to a packet that is the head now, and to
padding. -/
def inOrder (x : Exchange) : List (BitVec 64) :=
  ((x.placed.filter fun spot => x.after.head = some spot.incoming).map Placement.outgoing).toList ++
    x.reserved

variable {n : Numbering} {p : Packet}

theorem inOrder_of_ok {spot : Placement} (h : (n.receive p).value.2 = .ok spot) :
    inOrder ⟨n, .forward p⟩ =
      if (n.receive p).value.1.head = some spot.incoming then [spot.outgoing] else [] := by
  by_cases hhead : (n.receive p).value.1.head = some spot.incoming
  · simp [inOrder, placed_of_ok h, after_forward, reserved, hhead]
  · simp [inOrder, placed_of_ok h, after_forward, reserved, hhead]

theorem inOrder_of_error {refusal : Refusal} (h : (n.receive p).value.2 = .error refusal) :
    inOrder ⟨n, .forward p⟩ = [] := by
  simp [inOrder, placed_of_error h, reserved]

theorem inOrder_inject (n : Numbering) (count : BitVec 16) :
    inOrder ⟨n, .inject count⟩ = reserved ⟨n, .inject count⟩ := rfl

end Exchange

variable {history t : ℕ} {n m : Numbering} {l : Line} {g : Ledger} {p : Packet} {head e : BitVec 64}

theorem upcoming_eq (n : Numbering) : n.upcoming =
    n.head.bind fun head => (n.offsets.get (head + 1)).toOption.map (head + 1 - ·) := by
  unfold upcoming
  congr 1
  funext head
  rw [value_placeHead]
  cases n.offsets.get (head + 1) <;> rfl

theorem upcoming_congr (hhead : m.head = n.head) (hoff : m.offsets = n.offsets) :
    m.upcoming = n.upcoming := by
  rw [upcoming_eq, upcoming_eq, hhead, hoff]

theorem place_lastOutgoing {spot : Placement} (h : (n.place p e).value.2 = .ok spot)
    (hhead : (n.place p e).value.1.head = some spot.incoming) :
    (n.place p e).value.1.lastOutgoing = some spot.outgoing := by
  rw [value_place] at h hhead ⊢
  by_cases hdup : n.head = some e
  · rw [if_pos hdup] at h
    cases h
  rw [if_neg hdup] at h hhead ⊢
  by_cases hlate : n.head.any (e < ·)
  · -- a late packet is not the head afterwards
    rw [if_pos hlate, value_placeLate] at h hhead
    rcases hget : n.offsets.get e with error | offset
    · rw [hget] at h
      cases error <;> cases h
    · rw [hget] at h hhead
      cases h
      exact absurd hhead hdup
  rw [if_neg hlate] at h hhead ⊢
  by_cases hp : p.isPaddingOnly
  · rw [if_pos hp, value_dropPadding] at h
    simp only at h
    split at h <;> cases h
  rw [if_neg hp, value_placeHead] at h ⊢
  rcases hget : n.offsets.get e with error | offset
  · simp only [hget] at h
    cases h
  · simp only [hget] at h ⊢
    cases h
    rfl

private theorem widen_sub_one {count : BitVec 16} (hc : count ≠ 0) :
    count.setWidth 64 - 1 = BitVec.ofNat 64 (count.toNat - 1) := by
  have hpos : count.toNat ≠ 0 := by simpa [BitVec.toNat_eq] using hc
  have hone : 1 ≤ count.setWidth 64 := by
    rw [BitVec.le_def, toNat_widen]
    exact Nat.one_le_iff_ne_zero.mpr hpos
  apply BitVec.eq_of_toNat_eq
  rw [BitVec.toNat_sub_of_le hone, toNat_widen, BitVec.toNat_ofNat]
  exact (Nat.mod_eq_of_lt (by omega)).symm

theorem reserve_lastOutgoing {count : BitVec 16} {number : BitVec 64}
    (h : number ∈ (Exchange.reserved ⟨n, .inject count⟩).getLast?) :
    (n.reserve count).value.1.lastOutgoing = some number := by
  rw [Exchange.reserved_inject] at h
  rw [value_reserve] at h ⊢
  rcases hnext : n.nextOutgoing.value with error | _ | next
  · rw [hnext] at h
    cases h
  · rw [hnext] at h
    cases h
  rw [hnext] at h
  by_cases hc : count = 0
  · rw [hc] at h
    cases h
  simp only [hc, if_false] at h ⊢
  have hpos : count.toNat ≠ 0 := by simpa [BitVec.toNat_eq] using hc
  split at h
  · cases h
  · simp only [Except.toOption, Option.getD_some, List.getLast?_map, List.getLast?_range, hpos,
      if_false, Option.map_some, Option.mem_some_iff] at h
    rw [widen_sub_one hc, h]

/-- What an exchange hands out in order runs up from the number that is upcoming before it, and
stays below the one that is upcoming after it. -/
structure Climbs (x : Exchange) : Prop where
  upcoming : ∀ next, x.before.upcoming = some next →
    ∃ next', x.after.upcoming = some next' ∧ next.toNat ≤ next'.toNat
  bounds : ∀ number ∈ x.inOrder,
    (∀ next, x.before.upcoming = some next → next.toNat ≤ number.toNat) ∧
      ∃ next', x.after.upcoming = some next' ∧ number.toNat < next'.toNat
  ascending : x.inOrder.Pairwise fun a b => a.toNat < b.toNat
  last : ∀ number ∈ x.inOrder.getLast?, x.after.lastOutgoing = some number

theorem climbs_of_same {x : Exchange} (hup : x.after.upcoming = x.before.upcoming)
    (hnone : x.inOrder = []) : Climbs x := by
  constructor
  · intro next hnext
    exact ⟨next, hup.trans hnext, le_rfl⟩
  · simp [hnone]
  · simp [hnone]
  · simp [hnone]

theorem Leads.climbs {g : Ledger} (h : Leads history t m p e g) (ht : t < 2 ^ 47)
    (hrec : (n.receive p).value = (m.place p e).value)
    (hcontinues : ∀ next, n.upcoming = some next → next.toNat ≤ g.slot e.toNat) :
    Climbs ⟨n, .forward p⟩ := by
  obtain ⟨hhead, hpadding, hcontent⟩ := h
  rw [← hrec] at hhead hpadding hcontent
  cases hp : p.isPaddingOnly with
  | true =>
    obtain ⟨hres, l, hfollows⟩ := hpadding hp
    have hnone := Exchange.inOrder_of_error hres
    have hup := hfollows.upcoming ht hhead
    obtain ⟨head', hh, hread, -⟩ := hfollows.toNat_upcoming ht hup
    obtain rfl := Option.some.inj (hhead.symm.trans hh)
    constructor
    · intro next hnext
      refine ⟨_, hup, ?_⟩
      have hfrom := hcontinues next hnext
      have hmono := (g.drop e.toNat).slot_mono (show (e.toNat : ℤ) ≤ e.toNat + 1 by omega)
      rw [g.slot_drop_of_le le_rfl] at hmono
      omega
    · simp [hnone]
    · simp [hnone]
    · simp [hnone]
  | false =>
    obtain ⟨hres, hmem, l, hfollows⟩ := hcontent hp
    have hone : Exchange.inOrder ⟨n, .forward p⟩ = [BitVec.ofInt 64 (g.slot e.toNat)] := by
      rw [Exchange.inOrder_of_ok hres, if_pos hhead]
    have hup := hfollows.upcoming ht hhead
    obtain ⟨head', hh, hread, hle⟩ := hfollows.toNat_upcoming ht hup
    obtain rfl := Option.some.inj (hhead.symm.trans hh)
    obtain ⟨f, -, h0, hf, -, hpos⟩ := (hfollows.led e hhead).first
    have hmono := g.slot_mono hf
    have hlt := g.slot_lt (show (e.toNat : ℤ) < e.toNat + 1 by omega) hmem
    have hnumber : ((BitVec.ofInt 64 (g.slot e.toNat)).toNat : ℤ) = g.slot e.toNat :=
      Serial.toNat_ofInt_of_nonneg (by omega) (by omega)
    constructor
    · intro next hnext
      have hfrom := hcontinues next hnext
      exact ⟨_, hup, by omega⟩
    · intro number hin
      rw [hone] at hin
      obtain rfl := List.mem_singleton.mp hin
      refine ⟨fun next hnext => ?_, _, hup, by omega⟩
      have hfrom := hcontinues next hnext
      omega
    · rw [hone]
      exact List.pairwise_singleton _ _
    · intro number hlast
      rw [hone] at hlast
      obtain rfl := Option.some.inj hlast
      rw [Exchange.after_forward]
      rw [hrec] at hres hhead ⊢
      exact place_lastOutgoing hres hhead

namespace Follows

theorem climbs_behind (h : Follows history t n l g) (ht : t < 2 ^ 47) (hhead : n.head = some head)
    (he : e.toNat ≤ head.toNat)
    (hrec : (n.receive p).value = (place { n with ssrc := some p.ssrc } p e).value) :
    Climbs ⟨n, .forward p⟩ := by
  have hm := h.source (some p.ssrc)
  obtain ⟨stats, hafter, -, hspot⟩ := hm.place_behind ht p hhead he
  rw [← hrec] at hafter hspot
  have hstays : Exchange.after ⟨n, .forward p⟩ = { n with ssrc := some p.ssrc, stats := stats } :=
    hafter
  apply climbs_of_same
  · rw [hstays]
    exact upcoming_congr rfl rfl
  · cases hres : (n.receive p).value.2 with
    | error refusal => exact Exchange.inOrder_of_error hres
    | ok spot =>
      obtain ⟨rfl, hlt, -, -⟩ := hspot spot hres
      rw [Exchange.inOrder_of_ok hres, if_neg]
      rw [hafter]
      intro heq
      obtain rfl := Option.some.inj (hhead.symm.trans heq)
      omega

theorem climbs_forward (h : Follows history t n l g) (ht : t + 1 < 2 ^ 47) (p : Packet) :
    Climbs ⟨n, .forward p⟩ := by
  cases h.arrival (by omega) p with
  | ahead e hrec _ _ hcontinues hleads => exact hleads.climbs ht hrec hcontinues
  | behind head e hhead he hrec _ _ => exact h.climbs_behind (by omega) hhead he hrec
  | beforeStart head hhead hrec _ _ =>
    apply climbs_of_same
    · rw [Exchange.after_forward, hrec]
      exact upcoming_congr rfl rfl
    · exact Exchange.inOrder_of_error (by rw [hrec])

theorem toNat_reserved (h : Follows history t n l g) (ht : t < 2 ^ 47) (hhead : n.head = some head)
    (count : BitVec 16) : ∃ next, n.upcoming = some next ∧
      (Exchange.reserved ⟨n, .inject count⟩).map BitVec.toNat =
        List.range' next.toNat count.toNat := by
  have hup := h.upcoming ht hhead
  obtain ⟨head', hh, hread, hle⟩ := h.toNat_upcoming ht hup
  obtain rfl := Option.some.inj (hhead.symm.trans hh)
  refine ⟨_, hup, ?_⟩
  rw [h.reserved ht hhead, List.map_map, List.range'_eq_map_range]
  apply List.map_congr_left
  intro i hi
  have hi := List.mem_range.mp hi
  have hnumber : ((BitVec.ofInt 64 (g.slot (head.toNat + 1) + i)).toNat : ℤ) =
      g.slot (head.toNat + 1) + i := Serial.toNat_ofInt_of_nonneg (by omega) (by omega)
  simp only [Function.comp_apply]
  omega

theorem climbs_inject (h : Follows history t n l g) (ht : t + 1 < 2 ^ 47) (count : BitVec 16) :
    Climbs ⟨n, .inject count⟩ := by
  cases hhead : n.head with
  | none =>
    have hres := h.reserve_of_none (by omega) hhead count
    apply climbs_of_same
    · rw [Exchange.after_inject, hres]
    · rw [Exchange.inOrder_inject, Exchange.reserved_inject, hres]
      rfl
  | some head =>
    obtain ⟨l', hnext⟩ := (h.booked (by omega) (.inject count)).follows
    have hhead' : (Exchange.after ⟨n, .inject count⟩).head = some head := by
      obtain ⟨stats, lastOutgoing, l', hres, -⟩ := h.reserve (by omega) hhead count
      rw [Exchange.after_inject, hres]
      exact hhead
    have hup := hnext.upcoming ht hhead'
    obtain ⟨head', hh, hread, -⟩ := hnext.toNat_upcoming ht hup
    obtain rfl := Option.some.inj (hhead'.symm.trans hh)
    obtain ⟨next, hbefore, hnumbers⟩ := h.toNat_reserved (by omega) hhead count
    obtain ⟨head', hh, hfrom, -⟩ := h.toNat_upcoming (by omega) hbefore
    obtain rfl := Option.some.inj (hhead.symm.trans hh)
    -- the upcoming number moves on by as many as are reserved
    have hslot : (g.add ⟨n, .inject count⟩).slot (head.toNat + 1) =
        g.slot (head.toNat + 1) + count.toNat := by
      rw [Ledger.add_inject, h.burst (by omega) hhead, Option.elim_some,
        g.slot_reserve_of_lt _ (by omega), List.length_map, List.length_range]
    rw [hslot] at hread hup
    constructor
    · intro next' hnext'
      obtain rfl := Option.some.inj (hbefore.symm.trans hnext')
      exact ⟨_, hup, by omega⟩
    · intro number hin
      have hrange : number.toNat ∈ List.range' next.toNat count.toNat := by
        rw [← hnumbers]
        exact List.mem_map_of_mem hin
      obtain ⟨hlow, hhigh⟩ := List.mem_range'_1.mp hrange
      refine ⟨fun next' hnext' => ?_, _, hup, by omega⟩
      obtain rfl := Option.some.inj (hbefore.symm.trans hnext')
      exact hlow
    · have hrange : (List.range' next.toNat count.toNat).Pairwise (· < ·) := List.pairwise_lt_range'
      rw [← hnumbers, List.pairwise_map] at hrange
      exact hrange
    · intro number hlast
      exact reserve_lastOutgoing hlast

theorem climbs (h : Follows history t n l g) (ht : t + 1 < 2 ^ 47) (request : Request) :
    Climbs ⟨n, request⟩ := by
  cases request with
  | forward p => exact h.climbs_forward ht p
  | inject count => exact h.climbs_inject ht count
  | restart => exact climbs_of_same (upcoming_congr rfl rfl) rfl

end Follows

/-- The numbers handed out in order go up, and the upcoming number is above them. -/
structure Ascending (n : Numbering) (xs : List Exchange) : Prop where
  pairwise : (xs.flatMap Exchange.inOrder).Pairwise fun a b => a.toNat < b.toNat
  below : ∀ number ∈ xs.flatMap Exchange.inOrder,
    ∃ next, n.upcoming = some next ∧ number.toNat < next.toNat

theorem Ascending.step {xs : List Exchange} {x : Exchange} (h : Ascending x.before xs)
    (hx : Climbs x) : Ascending x.after (xs ++ [x]) := by
  have hnews : (xs ++ [x]).flatMap Exchange.inOrder =
      xs.flatMap Exchange.inOrder ++ x.inOrder := by
    rw [List.flatMap_append, List.flatMap_singleton]
  constructor
  · rw [hnews, List.pairwise_append]
    refine ⟨h.pairwise, hx.ascending, ?_⟩
    intro a ha b hb
    obtain ⟨next, hnext, hlt⟩ := h.below a ha
    have hle := (hx.bounds b hb).1 next hnext
    omega
  · rw [hnews]
    intro number hin
    rcases List.mem_append.mp hin with hin | hin
    · obtain ⟨next, hnext, hlt⟩ := h.below number hin
      obtain ⟨next', hnext', hle⟩ := hx.upcoming next hnext
      exact ⟨next', hnext', by omega⟩
    · exact (hx.bounds number hin).2

theorem ascending_run (history : ℕ) (requests : List Request) (hlen : requests.length < 2 ^ 47) :
    Ascending ((new history).after requests) ((new history).exchanges requests) := by
  induction requests using List.reverseRecOn with
  | nil => exact ⟨List.Pairwise.nil, by simp [exchanges]⟩
  | append_singleton rest request ih =>
    rw [List.length_append, List.length_singleton] at hlen
    obtain ⟨l, g, h⟩ := follows_run history rest (by omega)
    rw [after_concat, exchanges_concat]
    exact (ih (by omega)).step (h.climbs hlen request)

/-- Numbers are reserved before and during a restart, and the second stream loses one packet and
starts with padding. -/
private def renewed : List Request :=
  [.forward ⟨1, 10, 0, [1], 0⟩, .inject 2, .restart, .inject 1, .forward ⟨1, 40000, 0, [], 0⟩,
    .forward ⟨1, 40002, 0, [1], 0⟩, .forward ⟨2, 7, 0, [1], 0⟩, .forward ⟨2, 6, 0, [1], 0⟩]

end Renumber.Numbering
