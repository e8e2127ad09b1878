import Renumber.Proofs.Ascent
import Renumber.Proofs.GapFree

/-! Whether the last number that is remembered is the highest one handed out. A late packet goes
beyond it if the head was moved past that packet by padding that was left out. -/
namespace Renumber.Numbering

namespace Exchange

/-- The extended outgoing numbers handed out: to a packet at or behind the head, and to padding. -/
def outgoing (x : Exchange) : List (BitVec 64) :=
  (x.placed.map Placement.outgoing).toList ++ x.reserved

/-- The head, if something was handed out there. -/
def reach (x : Exchange) : Option (BitVec 64) := if x.inOrder = [] then none else x.after.head

theorem mem_outgoing_iff {x : Exchange} {number : BitVec 64} : number ∈ x.outgoing ↔
    number ∈ x.inOrder ∨ ∃ spot, x.placed = some spot ∧ spot.outgoing = number := by
  simp only [outgoing, inOrder, List.mem_append, Option.mem_toList, Option.map_eq_some_iff,
    Option.filter_eq_some_iff]
  constructor
  · rintro (⟨spot, hspot, rfl⟩ | hin)
    · exact Or.inr ⟨spot, hspot, rfl⟩
    · exact Or.inl (Or.inr hin)
  · rintro ((⟨spot, hspot, rfl⟩ | hin) | ⟨spot, hspot, rfl⟩)
    · exact Or.inl ⟨spot, hspot.1, rfl⟩
    · exact Or.inr hin
    · exact Or.inl ⟨spot, hspot, rfl⟩

end Exchange

/-- The head at which a number was last handed out in order. -/
def reached (xs : List Exchange) : Option (BitVec 64) := (xs.filterMap Exchange.reach).getLast?

variable {history t : ℕ} {n m : Numbering} {l : Line} {g : Ledger} {p : Packet} {head e : BitVec 64}
  {xs : List Exchange}

theorem reached_concat (xs : List Exchange) (x : Exchange) :
    reached (xs ++ [x]) = x.reach.or (reached xs) := by
  unfold reached
  cases hreach : x.reach with
  | none => simp [hreach]
  | some c => simp [hreach]

theorem mem_outgoing_iff {number : BitVec 64} : number ∈ xs.flatMap Exchange.outgoing ↔
    number ∈ xs.flatMap Exchange.inOrder ∨
      ∃ spot ∈ xs.filterMap Exchange.placed, spot.outgoing = number := by
  simp only [List.mem_flatMap, List.mem_filterMap, Exchange.mem_outgoing_iff]
  constructor
  · rintro ⟨x, hx, hin | ⟨spot, hspot, rfl⟩⟩
    · exact Or.inl ⟨x, hx, hin⟩
    · exact Or.inr ⟨spot, ⟨x, hx, hspot⟩, rfl⟩
  · rintro (⟨x, hx, hin⟩ | ⟨spot, ⟨x, hx, hspot⟩, rfl⟩)
    · exact ⟨x, hx, Or.inl hin⟩
    · exact ⟨x, hx, Or.inr ⟨spot, hspot, rfl⟩⟩

theorem facing_lastOutgoing (n : Numbering) (p : Packet) :
    (n.facing p).lastOutgoing = n.lastOutgoing := by
  unfold facing
  split <;> rfl

/-- Padding that is left out is not handed anything. -/
theorem place_lastOutgoing_of_padding (n : Numbering) (e : BitVec 64)
    (hp : p.isPaddingOnly = true) : (n.place p e).value.1.lastOutgoing = n.lastOutgoing := by
  rw [value_place, if_pos hp]
  split
  · rfl
  split
  · rw [value_placeLate]
    split <;> rfl
  · rw [value_dropPadding]
    split <;> rfl

/-- The exchange hands out nothing in order: the last number stays, and so do the slots of all
numbers up to the one after the head. -/
structure Idle (x : Exchange) (g : Ledger) : Prop where
  last : x.after.lastOutgoing = x.before.lastOutgoing
  slots : ∀ head, x.before.head = some head → x.rebases = false →
    ∀ k ≤ (head.toNat + 1 : ℤ), (g.add x).slot k = g.slot k

/-- A packet that takes the lead gets nothing only if it is padding. -/
theorem Leads.idle (h : Leads history t m p e (g.meet ⟨n, .forward p⟩))
    (hm : m.lastOutgoing = n.lastOutgoing)
    (hrec : (n.receive p).value = (m.place p e).value)
    (hext : Exchange.extended ⟨n, .forward p⟩ = some e)
    (hlead : ∀ head, n.head = some head → n.due p = false →
      head.toNat < e.toNat ∧ g.meet ⟨n, .forward p⟩ = g)
    (hnone : Exchange.inOrder ⟨n, .forward p⟩ = []) : Idle ⟨n, .forward p⟩ g := by
  obtain ⟨hhead, hpadding, hcontent⟩ := h
  rw [← hrec] at hhead hpadding hcontent
  cases hp : p.isPaddingOnly with
  | true =>
    constructor
    · rw [Exchange.after_forward, hrec, place_lastOutgoing_of_padding m e hp, hm]
    · intro head hh hdue k hk
      obtain ⟨hlt, hmeet⟩ := hlead head hh hdue
      rw [Ledger.add_of_dropped g (hpadding hp).1 hext, hmeet]
      exact g.slot_drop_of_le (by omega)
  | false =>
    rw [Exchange.inOrder_of_ok (hcontent hp).1, if_pos hhead] at hnone
    cases hnone

namespace Follows

theorem idle_forward (h : Follows history t n l g) (ht : t < 2 ^ 47)
    (hnone : Exchange.inOrder ⟨n, .forward p⟩ = []) : Idle ⟨n, .forward p⟩ g := by
  cases h.arrival ht p with
  | ahead e hrec hext hpasses _ hleads =>
    exact hleads.idle (facing_lastOutgoing n p) hrec hext hpasses hnone
  | behind head e hhead he hrec _ hmeet =>
    obtain ⟨stats, hafter, hrefused, -⟩ := (h.source (some p.ssrc)).place_behind ht p hhead he
    rw [← hrec] at hafter hrefused
    constructor
    · rw [Exchange.after_forward, hafter]
    · intro _ _ _ k _
      rw [Ledger.add_of_not_dropped g, hmeet]
      intro hdrop
      rcases hrefused _ hdrop with hr | hr | hr <;> cases hr
  | beforeStart head hhead hrec _ hmeet =>
    constructor
    · rw [Exchange.after_forward, hrec]
    · intro _ _ _ k _
      rw [Ledger.add_of_not_dropped g (by simp [hrec]), hmeet]

theorem idle_inject (h : Follows history t n l g) (ht : t < 2 ^ 47) {count : BitVec 16}
    (hnone : Exchange.inOrder ⟨n, .inject count⟩ = []) : Idle ⟨n, .inject count⟩ g := by
  rw [Exchange.inOrder_inject] at hnone
  cases hhead : n.head with
  | none =>
    constructor
    · rw [Exchange.after_inject, h.reserve_of_none ht hhead count]
    · intro head hh
      cases hhead.symm.trans hh
  | some head =>
    -- at a head there is always something to reserve, so that none was asked for
    have hzero : count = 0 := by
      rw [h.reserved ht hhead, List.map_eq_nil_iff, List.range_eq_nil] at hnone
      exact BitVec.eq_of_toNat_eq hnone
    subst hzero
    constructor
    · rw [Exchange.after_inject, value_reserve]
      rcases n.nextOutgoing.value with error | _ | next <;> rfl
    · intro head' _ _ k _
      rw [Ledger.add_inject, h.burst ht hhead, Option.elim_some]
      rcases le_or_gt k head.toNat with hk | hk
      · exact g.slot_reserve_of_le _ hk
      · rw [g.slot_reserve_of_lt _ hk]
        simp

theorem idle (h : Follows history t n l g) (ht : t < 2 ^ 47) {request : Request}
    (hnone : Exchange.inOrder ⟨n, request⟩ = []) : Idle ⟨n, request⟩ g := by
  cases request with
  | forward p => exact h.idle_forward ht hnone
  | inject count => exact h.idle_inject ht hnone
  | restart => exact ⟨rfl, fun _ _ _ k _ => by rw [Ledger.add_restart]⟩

end Follows

/-- Books that are not shifted have no slot before zero. -/
theorem Led.slot_nonneg (h : Led t head l g) (hshift : g.shift = 0) {k : ℤ} (hk : 0 ≤ k) :
    0 ≤ g.slot k := by
  obtain ⟨f, -, h0, -, hspans, -⟩ := h.first
  have hzero := hspans.slot_of_le h0
  rw [hshift, add_zero] at hzero
  exact hzero.ge.trans (g.slot_mono hk)

/-- The last number handed out in order lies from the slot of the head of that moment up to the slot
after it. -/
structure Reaches (n : Numbering) (g : Ledger) (xs : List Exchange) : Prop where
  last : n.lastOutgoing = (xs.flatMap Exchange.inOrder).getLast?
  slots : ∀ number, n.lastOutgoing = some number →
    ∃ c head, reached xs = some c ∧ n.head = some head ∧ c.toNat ≤ head.toNat ∧
      g.slot c.toNat ≤ number.toNat ∧ (number.toNat : ℤ) < g.slot (c.toNat + 1)

theorem Reaches.step_idle {x : Exchange} (h : Reaches x.before g xs) (hidle : Idle x g)
    (hbooked : Booked history t x g) (hr : x.rebases = false) (hnone : x.inOrder = []) :
    Reaches x.after (g.add x) (xs ++ [x]) := by
  have hreach : x.reach = none := if_pos hnone
  constructor
  · rw [hidle.last, h.last, List.flatMap_append, List.flatMap_singleton, hnone, List.append_nil]
  · intro number hnumber
    rw [hidle.last] at hnumber
    obtain ⟨c, head, hc, hhead, hle, hlow, hhigh⟩ := h.slots number hnumber
    obtain ⟨⟨head', hhead', hle'⟩, -⟩ := hbooked.settled head hhead hr
    refine ⟨c, head', ?_, hhead', by omega, ?_, ?_⟩
    · rw [reached_concat, hreach, Option.none_or, hc]
    · rwa [hidle.slots head hhead hr c.toNat (by omega)]
    · rwa [hidle.slots head hhead hr (c.toNat + 1) (by omega)]

/-- A packet at the head has the very slot of the head. -/
theorem Booked.slot_le_outgoing {x : Exchange} {spot : Placement} (h : Booked history t x g)
    (ht : t < 2 ^ 47) (hplaced : x.placed = some spot) (hhead : x.after.head = some spot.incoming) :
    (g.add x).slot spot.incoming.toNat ≤ spot.outgoing.toNat := by
  obtain ⟨l, hafter⟩ := h.follows
  obtain ⟨f, -, -, hf, -, hpos⟩ := (hafter.led _ hhead).first
  have hnear := (hafter.led _ hhead).near
  have hnext := (g.add x).slot_mono (Int.le_add_one (le_refl (spot.incoming.toNat : ℤ)))
  have hnonneg := hpos.trans ((g.add x).slot_mono hf)
  rw [(h.placed spot hplaced).2.slot, Serial.toNat_ofInt_of_nonneg hnonneg (by omega)]

/-- Reserved numbers come after the slot of the head. -/
theorem Follows.slot_le_reserved {count : BitVec 16} {number : BitVec 64}
    (h : Follows history t n l g) (ht : t + 1 < 2 ^ 47)
    (hhead : (Exchange.after ⟨n, .inject count⟩).head = some head)
    (hin : number ∈ Exchange.reserved ⟨n, .inject count⟩) :
    (g.add ⟨n, .inject count⟩).slot head.toNat ≤ number.toNat := by
  cases hh : n.head with
  | none =>
    rw [Exchange.reserved_inject, h.reserve_of_none (by omega) hh count] at hin
    cases hin
  | some old =>
    obtain rfl : old = head := by
      obtain ⟨stats, lastOutgoing, l', hres, -⟩ := h.reserve (by omega) hh count
      rw [Exchange.after_inject, hres] at hhead
      exact Option.some.inj (hh.symm.trans hhead)
    have hup := h.upcoming (by omega) hh
    obtain ⟨old', hh', hread, -⟩ := h.toNat_upcoming (by omega) hup
    obtain rfl := Option.some.inj (hh.symm.trans hh')
    have hlow := ((h.climbs ht (.inject count)).bounds number hin).1 _ hup
    have hmono := g.slot_mono (Int.le_add_one (le_refl (old.toNat : ℤ)))
    rw [(((h.booked (by omega) (.inject count)).settled old hh rfl).2 old.toNat le_rfl).2]
    omega

theorem Follows.slot_le_inOrder {request : Request} {number : BitVec 64}
    (h : Follows history t n l g) (ht : t + 1 < 2 ^ 47)
    (hhead : (Exchange.after ⟨n, request⟩).head = some head)
    (hin : number ∈ Exchange.inOrder ⟨n, request⟩) :
    (g.add ⟨n, request⟩).slot head.toNat ≤ number.toNat := by
  rcases List.mem_append.mp hin with hin | hin
  · obtain ⟨spot, hspot, rfl⟩ := Option.map_eq_some_iff.mp (Option.mem_toList.mp hin)
    obtain ⟨hplaced, hlead⟩ := Option.filter_eq_some_iff.mp hspot
    have hlead := of_decide_eq_true hlead
    obtain rfl := Option.some.inj (hhead.symm.trans hlead)
    exact (h.booked (by omega) request).slot_le_outgoing ht hplaced hlead
  · cases request with
    | forward p => cases hin
    | inject count => exact h.slot_le_reserved ht hhead hin
    | restart => cases hin

/-- What was handed out before does not matter once something is handed out in order. -/
theorem Follows.reaches {request : Request} (h : Follows history t n l g) (ht : t + 1 < 2 ^ 47)
    (xs : List Exchange) (hsome : Exchange.inOrder ⟨n, request⟩ ≠ []) :
    Reaches (Exchange.after ⟨n, request⟩) (g.add ⟨n, request⟩) (xs ++ [⟨n, request⟩]) := by
  have hclimbs := h.climbs ht request
  obtain ⟨last, hlast⟩ := Option.ne_none_iff_exists'.mp (mt List.getLast?_eq_none_iff.mp hsome)
  have hmem : last ∈ Exchange.inOrder ⟨n, request⟩ := List.mem_of_getLast? hlast
  have hnow := hclimbs.last last hlast
  obtain ⟨l', hafter⟩ := (h.booked (by omega) request).follows
  obtain ⟨-, next, hnext, hlt⟩ := hclimbs.bounds last hmem
  obtain ⟨head, hhead, hread, -⟩ := hafter.toNat_upcoming (by omega) hnext
  have hreach : Exchange.reach ⟨n, request⟩ = some head := (if_neg hsome).trans hhead
  constructor
  · rw [hnow, List.flatMap_append, List.flatMap_singleton, List.getLast?_append, hlast,
      Option.some_or]
  · intro number hnumber
    obtain rfl := Option.some.inj (hnow.symm.trans hnumber)
    refine ⟨head, head, ?_, hhead, le_rfl, h.slot_le_inOrder ht hhead hmem, by omega⟩
    rw [reached_concat, hreach, Option.some_or]

theorem reaches_run (history : ℕ) (source : BitVec 32) (requests : List Request)
    (hlen : requests.length < 2 ^ 47) (hsteady : ∀ r ∈ requests, Steady source r) :
    Reaches ((new history).after requests) (Ledger.of ((new history).exchanges requests))
      ((new history).exchanges requests) := by
  induction requests using List.reverseRecOn with
  | nil =>
    refine ⟨rfl, fun number hnumber => ?_⟩
    cases hnumber
  | append_singleton rest request ih =>
    rw [List.length_append, List.length_singleton] at hlen
    have hrest : ∀ r ∈ rest, Steady source r := fun r hr => hsteady r (List.mem_append_left _ hr)
    obtain ⟨hbound, ⟨l, hfollows⟩, -⟩ := follows_of_steady history source rest (by omega) hrest
    have hr := hbound.rebases (hsteady request (by simp))
    have hbooked := hfollows.booked (by omega) request
    have hearlier := ih (by omega) hrest
    rw [exchanges_concat, after_concat, Ledger.of_concat _ hr]
    by_cases hnone : Exchange.inOrder ⟨(new history).after rest, request⟩ = []
    · exact hearlier.step_idle (hfollows.idle (by omega) hnone) hbooked hr hnone
    · exact hfollows.reaches hlen _ hnone

/-- A packet's number is not above the last one exactly if the packet was not ahead of the head at
which that one was handed out. -/
theorem Reaches.outgoing_le_iff (h : Reaches n g xs) {l : Line} (hfollows : Follows history t n l g)
    (ht : t < 2 ^ 47) (hshift : g.shift = 0) {spot : Placement} (hspot : Slotted n g spot)
    {number : BitVec 64} (hnumber : n.lastOutgoing = some number) :
    spot.outgoing.toNat ≤ number.toNat ↔ (reached xs).any (spot.incoming ≤ ·) := by
  obtain ⟨c, head, hc, hhead, hle, hlow, hhigh⟩ := h.slots number hnumber
  obtain ⟨head', hhead', hbehind⟩ := hspot.behind
  obtain rfl := Option.some.inj (hhead.symm.trans hhead')
  have hled := hfollows.led head hhead
  have hnear := hled.near
  have hpos := hled.slot_nonneg hshift (show (0 : ℤ) ≤ spot.incoming.toNat by omega)
  have hmono := g.slot_mono (show (spot.incoming.toNat : ℤ) ≤ head.toNat + 1 by omega)
  have hread : (spot.outgoing.toNat : ℤ) = g.slot spot.incoming.toNat := by
    rw [hspot.slot]
    exact Serial.toNat_ofInt_of_nonneg hpos (by omega)
  rw [hc, Option.any_some, decide_eq_true_iff, BitVec.le_def]
  rcases le_or_gt spot.incoming.toNat c.toNat with hk | hk
  · have := g.slot_mono (show (spot.incoming.toNat : ℤ) ≤ c.toNat by omega)
    omega
  · have := g.slot_mono (show (c.toNat + 1 : ℤ) ≤ spot.incoming.toNat by omega)
    omega

theorem Reaches.none (h : Reaches n g xs) (hnone : n.lastOutgoing = none) :
    xs.flatMap Exchange.inOrder = [] ∧ reached xs = none := by
  have hempty : xs.flatMap Exchange.inOrder = [] := by
    rw [← List.getLast?_eq_none_iff, ← h.last, hnone]
  refine ⟨hempty, List.getLast?_eq_none_iff.mpr ?_⟩
  rw [List.filterMap_eq_nil_iff]
  intro x hx
  exact if_pos (List.flatMap_eq_nil_iff.mp hempty x hx)

theorem Ascending.le_last (h : Ascending n xs) {last : BitVec 64}
    (hlast : (xs.flatMap Exchange.inOrder).getLast? = some last) {number : BitVec 64}
    (hin : number ∈ xs.flatMap Exchange.inOrder) : number.toNat ≤ last.toNat := by
  obtain ⟨earlier, hall⟩ := List.getLast?_eq_some_iff.mp hlast
  have hpairwise := h.pairwise
  rw [hall, List.pairwise_append] at hpairwise
  rw [hall] at hin
  rcases List.mem_append.mp hin with hin | hin
  · exact (hpairwise.2.2 number hin last (List.mem_singleton_self _)).le
  · rw [List.mem_singleton.mp hin]

theorem Reaches.max_inOrder (h : Reaches n g xs) (hascends : Ascending n xs) :
    n.lastOutgoing.map BitVec.toNat = ((xs.flatMap Exchange.inOrder).map BitVec.toNat).max? := by
  cases hlast : n.lastOutgoing with
  | none =>
    rw [(h.none hlast).1]
    rfl
  | some last =>
    have hgetLast := h.last.symm.trans hlast
    rw [Option.map_some, eq_comm, List.max?_eq_some_iff, List.forall_mem_map]
    exact ⟨List.mem_map_of_mem (List.mem_of_getLast? hgetLast),
      fun number hin => hascends.le_last hgetLast hin⟩

/-- The last number is the highest one of all if the packets stay below it, and only then. -/
theorem Reaches.max_outgoing_iff (h : Reaches n g xs) (hascends : Ascending n xs)
    (hle : ∀ last, n.lastOutgoing = some last → ∀ spot ∈ xs.filterMap Exchange.placed,
      (spot.outgoing.toNat ≤ last.toNat ↔ (reached xs).any (spot.incoming ≤ ·))) :
    n.lastOutgoing.map BitVec.toNat = ((xs.flatMap Exchange.outgoing).map BitVec.toNat).max? ↔
      ∀ spot ∈ xs.filterMap Exchange.placed, (reached xs).any (spot.incoming ≤ ·) := by
  cases hlast : n.lastOutgoing with
  | none =>
    obtain ⟨hempty, hunreached⟩ := h.none hlast
    rw [hunreached, Option.map_none, eq_comm, List.max?_eq_none_iff, List.map_eq_nil_iff,
      List.eq_nil_iff_forall_not_mem]
    constructor
    · intro hnothing spot hspot
      exact absurd (mem_outgoing_iff.mpr (Or.inr ⟨spot, hspot, rfl⟩)) (hnothing spot.outgoing)
    · intro hnone number hnumber
      rcases mem_outgoing_iff.mp hnumber with hin | ⟨spot, hspot, -⟩
      · rw [hempty] at hin
        cases hin
      · cases hnone spot hspot
  | some last =>
    have hgetLast := h.last.symm.trans hlast
    have hmem := List.mem_of_getLast? hgetLast
    rw [Option.map_some, eq_comm, List.max?_eq_some_iff, List.forall_mem_map]
    constructor
    · rintro ⟨-, hbound⟩ spot hspot
      exact (hle last hlast spot hspot).mp
        (hbound _ (mem_outgoing_iff.mpr (Or.inr ⟨spot, hspot, rfl⟩)))
    · intro hbehind
      refine ⟨List.mem_map_of_mem (mem_outgoing_iff.mpr (Or.inl hmem)), ?_⟩
      intro number hnumber
      rcases mem_outgoing_iff.mp hnumber with hin | ⟨spot, hspot, rfl⟩
      · exact hascends.le_last hgetLast hin
      · exact (hle last hlast spot hspot).mpr (hbehind spot hspot)

/-- In a run of one stream on a new numbering, the last number that is remembered is the highest one
handed out in order, and a restart reports it. It is the highest one of all exactly if no packet was
forwarded whose number is ahead of the head at which a number was last handed out in order. -/
theorem lastOutgoing_highest_iff (history : ℕ) (source : BitVec 32) (requests : List Request)
    (hlen : requests.length < 2 ^ 47) (hsteady : ∀ r ∈ requests, Steady source r) :
    let xs := (new history).exchanges requests
    let n := (new history).after requests
    n.lastOutgoing.map BitVec.toNat = ((xs.flatMap Exchange.inOrder).map BitVec.toNat).max? ∧
      (n.lastOutgoing.map BitVec.toNat =
          ((xs.flatMap Exchange.outgoing).map BitVec.toNat).max? ↔
        ∀ spot ∈ xs.filterMap Exchange.placed, (reached xs).any (spot.incoming ≤ ·)) ∧
      n.restart.events = [.restartRequested n.ssrc n.lastOutgoing] := by
  intro xs n
  obtain ⟨-, ⟨l, hfollows⟩, hagrees⟩ := follows_of_steady history source requests hlen.le hsteady
  have hreaches : Reaches n (Ledger.of xs) xs := reaches_run history source requests hlen hsteady
  have hascends : Ascending n xs := ascending_run history requests hlen
  refine ⟨hreaches.max_inOrder hascends, hreaches.max_outgoing_iff hascends ?_, by simp [restart]⟩
  intro last hlast spot hspot
  obtain ⟨x, hx, hplaced⟩ := List.mem_filterMap.mp hspot
  exact hreaches.outgoing_le_iff hfollows hlen rfl ((hagrees x hx).placed spot hplaced).2 hlast

/-- Number 12 is left out, two numbers are reserved after it, and number 11 comes late. -/
private def refilled : List Request :=
  [.forward ⟨1, 10, 0, [1], 0⟩, .forward ⟨1, 12, 0, [], 0⟩, .inject 2, .forward ⟨1, 11, 0, [1], 0⟩]

theorem lastOutgoing_highest_refilled :
    refilled.length < 2 ^ 47 ∧ (∀ r ∈ refilled, Steady 1 r) ∧
      ((new 4).after refilled).lastOutgoing.map BitVec.toNat =
        ((((new 4).exchanges refilled).flatMap Exchange.outgoing).map BitVec.toNat).max? ∧
      ((new 4).after refilled).lastOutgoing = some 13 := by
  have hlen : refilled.length < 2 ^ 47 := by decide
  have hsteady : ∀ r ∈ refilled, Steady 1 r := by simp [refilled, Steady]
  refine ⟨hlen, hsteady, ?_, by decide⟩
  refine (lastOutgoing_highest_iff 4 1 refilled hlen hsteady).2.1.mpr ?_
  decide

/-- The head is moved past number 15 by padding that is left out. -/
private def overtaken : List Request :=
  [.forward ⟨1, 10, 0, [0x61], 0⟩, .forward ⟨1, 20, 0, [], 0⟩, .forward ⟨1, 15, 0, [0x61], 0⟩]

theorem lastOutgoing_not_highest_overtaken :
    (∀ r ∈ overtaken, Steady 1 r) ∧
      ((new 16).after overtaken).lastOutgoing.map BitVec.toNat ≠
        ((((new 16).exchanges overtaken).flatMap Exchange.outgoing).map BitVec.toNat).max? := by
  refine ⟨by simp [overtaken, Steady], ?_⟩
  decide

end Renumber.Numbering
