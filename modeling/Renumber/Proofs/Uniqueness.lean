import Renumber.Proofs.Steps

/-! Outgoing numbers across restarts, and the only way in which one is handed out twice. -/
namespace Renumber.Numbering

/-- Where the incoming numbers started last. -/
structure Base where
  /-- How often they started anew. -/
  epoch : ℕ := 0
  /-- The number of the first packet, and the outgoing number that stands for it. -/
  opening : Option Placement := none
  deriving DecidableEq, Repr

def Base.next (base : Base) (x : Exchange) : Base :=
  if x.rebases then
    ⟨base.epoch + 1, x.extended.map fun e => ⟨e, x.before.upcoming.getD e⟩⟩
  else ⟨base.epoch, base.opening.or (x.extended.map fun e => ⟨e, e⟩)⟩

inductive HandOut where
  | packet (base : Base) (spot : Placement)
  | padding (number : BitVec 64)
  deriving DecidableEq, Repr

namespace HandOut

def number : HandOut → BitVec 64
  | packet _ spot => spot.outgoing
  | padding number => number

def Same : HandOut → HandOut → Prop
  | packet base spot, packet base' spot' =>
    base.epoch = base'.epoch ∧ spot.incoming = spot'.incoming
  | _, _ => False

instance : DecidableRel Same
  | packet .., packet .. => inferInstanceAs (Decidable (_ ∧ _))
  | packet .., padding _ => isFalse id
  | padding _, _ => isFalse id

/-- A packet that precedes the first one of its stream by as much as the number `m` precedes the
number that stands for the first one. -/
def FallsBackTo (m : BitVec 64) : HandOut → Prop
  | packet base spot => ∃ o ∈ base.opening,
    spot.incoming < o.incoming ∧ m = o.outgoing - (o.incoming - spot.incoming)
  | padding _ => False

instance (m : BitVec 64) : DecidablePred (FallsBackTo m)
  | packet base spot => inferInstanceAs (Decidable (∃ o ∈ base.opening,
      spot.incoming < o.incoming ∧ m = o.outgoing - (o.incoming - spot.incoming)))
  | padding _ => isFalse id

/-- Different packets or paddings share a number only where the later one falls back. -/
def Apart (a b : HandOut) : Prop := ¬a.Same b → (a.number = b.number ↔ b.FallsBackTo a.number)

end HandOut

/-- What an exchange hands out. -/
def Exchange.handOuts (x : Exchange) (base : Base) : List HandOut :=
  (x.placed.map (HandOut.packet base)).toList ++ x.reserved.map HandOut.padding

theorem Exchange.handOuts_forward (n : Numbering) (p : Packet) (base : Base) :
    handOuts ⟨n, .forward p⟩ base =
      ((placed ⟨n, .forward p⟩).map (HandOut.packet base)).toList :=
  List.append_nil _

theorem Exchange.handOuts_inject (n : Numbering) (count : BitVec 16) (base : Base) :
    handOuts ⟨n, .inject count⟩ base = (reserved ⟨n, .inject count⟩).map HandOut.padding := rfl

theorem Exchange.handOuts_restart (n : Numbering) (base : Base) :
    handOuts ⟨n, .restart⟩ base = [] := rfl

def handOuts (base : Base) : List Exchange → List HandOut
  | [] => []
  | x :: rest => x.handOuts (base.next x) ++ handOuts (base.next x) rest

theorem handOuts_concat (base : Base) (xs : List Exchange) (x : Exchange) :
    handOuts base (xs ++ [x]) =
      handOuts base xs ++ x.handOuts ((xs.foldl Base.next base).next x) := by
  induction xs generalizing base with
  | nil => simp [handOuts]
  | cons first rest ih => simp [handOuts, ih]

/-- The books start where the base says. -/
structure Opened (base : Base) (g : Ledger) : Prop where
  first : g.first = base.opening.map fun o => (o.incoming.toNat : ℤ)
  slot : ∀ o ∈ base.opening, g.slot o.incoming.toNat = o.outgoing.toNat

/-- The number lies before the slot of the first packet. -/
def Past (g : Ledger) (m : BitVec 64) : Prop :=
  ∃ y : ℤ, m = BitVec.ofInt 64 y ∧ -2 ^ 63 ≤ y ∧ ∀ f, g.first = some f → y < g.slot f

/-- What was handed out is in the books, or belongs to former ones. -/
inductive Filed (n : Numbering) (base : Base) (g : Ledger) : HandOut → Prop
  | packet (spot : Placement) (hslotted : Slotted n g spot) : Filed n base g (.packet base spot)
  | padding (m : BitVec 64) (hmem : (m.toNat : ℤ) ∈ g.numbers) : Filed n base g (.padding m)
  | past (a : HandOut) (hpast : Past g a.number) : Filed n base g a

variable {history t : ℕ} {n : Numbering} {l : Line} {g : Ledger} {base : Base}

private theorem ofInt_inj_signed {x y : ℤ} (hx : -2 ^ 63 ≤ x) (hx' : x < 2 ^ 63)
    (hy : -2 ^ 63 ≤ y) (hy' : y < 2 ^ 63) (h : BitVec.ofInt 64 x = BitVec.ofInt 64 y) : x = y := by
  have := congrArg BitVec.toInt h
  rwa [BitVec.toInt_ofInt_eq_self (by decide) hx hx',
    BitVec.toInt_ofInt_eq_self (by decide) hy hy'] at this

theorem Filed.below (h : Follows history t n l g) (ht : t ≤ 2 ^ 47) {head : BitVec 64}
    (hhead : n.head = some head) {a : HandOut} (ha : Filed n base g a) :
    ∃ y : ℤ, a.number = BitVec.ofInt 64 y ∧ -2 ^ 63 ≤ y ∧ y < g.slot (head.toNat + 1) := by
  have hled := h.led head hhead
  obtain ⟨f, hfirst, h0, hf, hspans, hpos⟩ := hled.first
  cases ha with
  | packet spot hslotted =>
    obtain ⟨head', hhead', hle⟩ := hslotted.behind
    obtain rfl := Option.some.inj (hhead.symm.trans hhead')
    exact ⟨_, hslotted.slot, hled.slot_ge ht (by omega), g.slot_lt (by omega) hslotted.kept⟩
  | padding m hmem =>
    exact ⟨m.toNat, (Serial.ofInt_toNat m).symm, by omega, (hspans.mem_numbers hmem).2⟩
  | past a hpast =>
    obtain ⟨y, hy, hlow, hlt⟩ := hpast
    have hmono := g.slot_mono (show f ≤ head.toNat + 1 by omega)
    have := hlt f hfirst
    exact ⟨y, hy, hlow, by omega⟩

/-- Before the first packet of the stream, the slots run back from its number. -/
theorem fallsBackTo_iff {f next : ℤ} (hspans : g.Spans f next) {o spot : Placement}
    (ho : base.opening = some o) (hf : f = o.incoming.toNat) (hslot : g.slot f = o.outgoing.toNat)
    (hspot : spot.outgoing = BitVec.ofInt 64 (g.slot spot.incoming.toNat)) (m : BitVec 64) :
    (HandOut.packet base spot).FallsBackTo m ↔
      (spot.incoming.toNat : ℤ) < f ∧ m = spot.outgoing := by
  have hback : (spot.incoming.toNat : ℤ) < f →
      o.outgoing - (o.incoming - spot.incoming) = spot.outgoing := fun hlt => by
    have hfirst := hspans.slot_of_le le_rfl
    have hslots : g.slot spot.incoming.toNat =
        o.outgoing.toNat - (o.incoming.toNat - spot.incoming.toNat) := by
      rw [hspans.slot_of_le hlt.le]
      omega
    rw [hspot, hslots, Serial.ofInt_sub, Serial.ofInt_sub, Serial.ofInt_toNat, Serial.ofInt_toNat,
      Serial.ofInt_toNat]
  simp only [HandOut.FallsBackTo, ho, Option.mem_some_iff, exists_eq_left', BitVec.lt_def]
  constructor
  · rintro ⟨hlt, hm⟩
    exact ⟨by omega, hm.trans (hback (by omega))⟩
  · rintro ⟨hlt, hm⟩
    exact ⟨by omega, hm.trans (hback hlt).symm⟩

/-- A packet of the stream with the given books shares its number with what was handed out before
only where it falls back. -/
theorem Filed.apart (h : Follows history t n l g) (ht : t < 2 ^ 47) (hopened : Opened base g)
    {a : HandOut} (ha : Filed n base g a) {spot : Placement} (hspot : Slotted n g spot) :
    a.Apart (.packet base spot) := by
  intro hsame
  obtain ⟨hmem, hslot, head, hhead, hle⟩ := hspot
  have hled := h.led head hhead
  obtain ⟨f, hfirst, h0, hf, hspans, hpos⟩ := hled.first
  obtain ⟨o, ho, hof⟩ := Option.map_eq_some_iff.mp (hopened.first.symm.trans hfirst)
  have hnear := hled.near
  have hlow := hled.slot_ge ht.le (k := spot.incoming.toNat) (by omega)
  have hhigh := g.slot_lt (show (spot.incoming.toNat : ℤ) < head.toNat + 1 by omega) hmem
  rw [fallsBackTo_iff hspans ho hof.symm (hof ▸ hopened.slot o ho) hslot]
  refine ⟨fun heq => ⟨?_, heq⟩, fun hfall => hfall.2⟩
  by_contra hge
  -- no number wraps, so the shared one is the slot of the packet
  have hread : ∀ y : ℤ, a.number = BitVec.ofInt 64 y → -2 ^ 63 ≤ y →
      y < g.slot (head.toNat + 1) → y = g.slot spot.incoming.toNat := by
    intro y hy hyl hyu
    apply ofInt_inj_signed hyl (by omega) hlow (by omega)
    rw [← hy, ← hslot]
    exact heq
  cases ha with
  | packet spot' hspot' =>
    obtain ⟨hmem', hslot', head', hhead', hle'⟩ := hspot'
    obtain rfl := Option.some.inj (hhead.symm.trans hhead')
    have heq' := hread _ hslot' (hled.slot_ge ht.le (by omega)) (g.slot_lt (by omega) hmem')
    have hinc := g.slot_inj hmem' hmem heq'
    exact hsame ⟨rfl, BitVec.eq_of_toNat_eq (by omega)⟩
  | padding m hm =>
    have heq' := hread _ (Serial.ofInt_toNat m).symm (by omega) (hspans.mem_numbers hm).2
    exact hspans.slot_notMem_numbers (by omega) (by omega) hmem (heq' ▸ hm)
  | past a hpast =>
    obtain ⟨y, hy, hyl, hyu⟩ := hpast
    have hyf := hyu f hfirst
    have hmono := g.slot_mono (show f ≤ head.toNat + 1 by omega)
    have hge' := g.slot_mono (show f ≤ spot.incoming.toNat by omega)
    have heq' := hread y hy hyl (by omega)
    omega

/-- All that a run has handed out. -/
structure Inventory (history t : ℕ) (n : Numbering) (base : Base) (g : Ledger)
    (outs : List HandOut) : Prop where
  follows : ∃ l, Follows history t n l g
  opened : Opened base g
  blank : g.first = none → outs = []
  filed : ∀ a ∈ outs, Filed n base g a
  apart : outs.Pairwise HandOut.Apart

theorem Base.next_of_due {p : Packet} (base : Base) (hdue : n.due p = true) :
    base.next ⟨n, .forward p⟩ = ⟨base.epoch + 1, some ⟨p.sequenceNumber.setWidth 64,
      n.upcoming.getD (p.sequenceNumber.setWidth 64)⟩⟩ := by
  simp only [Base.next, Exchange.rebases, hdue, if_true, Exchange.extended_of_due hdue,
    Option.map_some]

theorem Base.next_of_not_rebases (base : Base) {x : Exchange} (h : x.rebases = false) :
    base.next x = ⟨base.epoch, base.opening.or (x.extended.map fun e => ⟨e, e⟩)⟩ := by
  simp only [Base.next, h, Bool.false_eq_true, if_false]

theorem Opened.of_due {p : Packet} (hdue : n.due p = true)
    (hnext : Follows history (t + 1) (Exchange.after ⟨n, .forward p⟩) l (g.add ⟨n, .forward p⟩)) :
    Opened (base.next ⟨n, .forward p⟩) (g.add ⟨n, .forward p⟩) := by
  have hmeet := Ledger.meet_of_due g hdue
  have hfirst : (g.add ⟨n, .forward p⟩).first = some (p.sequenceNumber.toNat : ℤ) := by
    rw [Ledger.add_first, hmeet]
  rw [Base.next_of_due base hdue]
  refine ⟨?_, fun o ho => ?_⟩
  · rw [hfirst, Option.map_some, toNat_widen]
  · obtain rfl := Option.some.inj ho
    rw [toNat_widen, hnext.slot_first hfirst, Ledger.add_shift, hmeet]
    cases hup : n.upcoming with
    | none => rw [Exchange.shift_of_none p hup, Option.getD_none, toNat_widen, add_zero]
    | some next =>
      rw [Exchange.shift_of_some p hup]
      exact add_sub_cancel _ _

theorem Opened.of_not_rebases (h : Follows history t n l g) (hopened : Opened base g)
    {request : Request} (hr : Exchange.rebases ⟨n, request⟩ = false) {l' : Line}
    (hnext : Follows history (t + 1) (Exchange.after ⟨n, request⟩) l' (g.add ⟨n, request⟩)) :
    Opened (base.next ⟨n, request⟩) (g.add ⟨n, request⟩) := by
  have hfirst : (g.add ⟨n, request⟩).first =
      (base.next ⟨n, request⟩).opening.map fun o => (o.incoming.toNat : ℤ) := by
    rw [Ledger.add_first, Ledger.meet_of_not_rebases g hr, Base.next_of_not_rebases base hr,
      hopened.first]
    cases base.opening <;> cases Exchange.extended ⟨n, request⟩ <;> rfl
  refine ⟨hfirst, fun o ho => ?_⟩
  have hslot := hnext.slot_first (f := o.incoming.toNat) (by rw [hfirst, Option.mem_def.mp ho]; rfl)
  rw [hslot, Ledger.add_shift, Ledger.meet_of_not_rebases g hr]
  rw [Base.next_of_not_rebases base hr] at ho
  cases hbase : base.opening with
  | none =>
    have hg : g = {} := by
      cases hhead : n.head with
      | none => exact (h.fresh hhead).2.2
      | some head =>
        obtain ⟨f, hf, -⟩ := (h.led head hhead).first
        rw [hopened.first, hbase] at hf
        cases hf
    rw [hbase, Option.none_or, Option.mem_def, Option.map_eq_some_iff] at ho
    obtain ⟨e, -, rfl⟩ := ho
    rw [hg]
    exact add_zero _
  | some o' =>
    rw [hbase] at ho
    obtain rfl := Option.some.inj ho
    have hold := h.slot_first (f := o'.incoming.toNat) (by rw [hopened.first, hbase]; rfl)
    rw [← hopened.slot o' hbase, hold]

theorem Opened.next (h : Follows history t n l g) (hopened : Opened base g) {request : Request}
    {l' : Line}
    (hnext : Follows history (t + 1) (Exchange.after ⟨n, request⟩) l' (g.add ⟨n, request⟩)) :
    Opened (base.next ⟨n, request⟩) (g.add ⟨n, request⟩) := by
  cases hr : Exchange.rebases ⟨n, request⟩ with
  | false => exact hopened.of_not_rebases h hr hnext
  | true =>
    cases request with
    | forward p => exact Opened.of_due hr hnext
    | inject count => cases hr
    | restart => cases hr

theorem Filed.rebase (h : Follows history t n l g) (ht : t < 2 ^ 47) {p : Packet} {l' : Line}
    (hnext : Follows history (t + 1) (Exchange.after ⟨n, .forward p⟩) l' (g.add ⟨n, .forward p⟩))
    (hdue : n.due p = true) {head : BitVec 64} (hhead : n.head = some head) {a : HandOut}
    (ha : Filed n base g a) : Past (g.add ⟨n, .forward p⟩) a.number := by
  obtain ⟨y, hy, hlow, hlt⟩ := ha.below h ht.le hhead
  refine ⟨y, hy, hlow, ?_⟩
  intro f hf
  have hup := h.upcoming ht hhead
  obtain ⟨head', hhead', hread, -⟩ := h.toNat_upcoming ht hup
  obtain rfl := Option.some.inj (hhead.symm.trans hhead')
  have hslot : (g.add ⟨n, .forward p⟩).slot f = f + Exchange.shift ⟨n, .forward p⟩ := by
    rw [hnext.slot_first hf, Ledger.add_shift, Ledger.meet_of_due g hdue]
  rw [Ledger.add_first, Ledger.meet_of_due g hdue] at hf
  obtain rfl := Option.some.inj hf
  rw [hslot, Exchange.shift_of_some p hup]
  omega

/-- Within a stream, whatever was handed out stays in the books. -/
theorem Filed.keep (h : Follows history t n l g) (hopened : Opened base g) {request : Request}
    (hbooked : Booked history (t + 1) ⟨n, request⟩ g)
    (hr : Exchange.rebases ⟨n, request⟩ = false) {head : BitVec 64} (hhead : n.head = some head)
    {a : HandOut} (ha : Filed n base g a) :
    Filed (Exchange.after ⟨n, request⟩) (base.next ⟨n, request⟩) (g.add ⟨n, request⟩) a := by
  obtain ⟨f, hfirst, -, hf, -, -⟩ := (h.led head hhead).first
  obtain ⟨-, hsame⟩ := hbooked.settled head hhead hr
  obtain ⟨o, ho, -⟩ := Option.map_eq_some_iff.mp (hopened.first.symm.trans hfirst)
  have hbase : base.next ⟨n, request⟩ = base := by
    rw [Base.next_of_not_rebases base hr, ho, Option.some_or, ← ho]
  have hfirst' : (g.add ⟨n, request⟩).first = some f := by
    rw [Ledger.add_first, Ledger.meet_of_not_rebases g hr, hfirst]
    rfl
  rw [hbase]
  cases ha with
  | packet spot hslotted => exact .packet spot (hslotted.next hbooked hr)
  | padding m hmem => exact .padding m (g.mem_numbers_add hr hmem)
  | past a hpast =>
    obtain ⟨y, hy, hlow, hlt⟩ := hpast
    refine .past a ⟨y, hy, hlow, ?_⟩
    intro f' hf'
    obtain rfl := Option.some.inj (hfirst'.symm.trans hf')
    rw [(hsame f hf).2]
    exact hlt f hfirst

theorem Filed.next (h : Follows history t n l g) (ht : t < 2 ^ 47) (hopened : Opened base g)
    {request : Request} (hbooked : Booked history (t + 1) ⟨n, request⟩ g) {head : BitVec 64}
    (hhead : n.head = some head) {a : HandOut} (ha : Filed n base g a) :
    Filed (Exchange.after ⟨n, request⟩) (base.next ⟨n, request⟩) (g.add ⟨n, request⟩) a := by
  cases hr : Exchange.rebases ⟨n, request⟩ with
  | false => exact ha.keep h hopened hbooked hr hhead
  | true =>
    obtain ⟨l', hnext⟩ := hbooked.follows
    cases request with
    | forward p => exact .past a (ha.rebase h ht hnext hr hhead)
    | inject count => cases hr
    | restart => cases hr

theorem HandOut.apart_padding {a : HandOut} {y z : ℤ} (ha : a.number = BitVec.ofInt 64 y)
    (hy : -2 ^ 63 ≤ y) (hlt : y < z) (hz : z < 2 ^ 63) :
    a.Apart (.padding (BitVec.ofInt 64 z)) := by
  intro _
  constructor
  · intro heq
    have := ofInt_inj_signed hy (by omega) (by omega) hz (ha.symm.trans heq)
    omega
  · intro hfall
    cases hfall

variable {outs : List HandOut}

theorem Inventory.filed_after (h : Inventory history t n base g outs) (ht : t < 2 ^ 47)
    {request : Request} (hbooked : Booked history (t + 1) ⟨n, request⟩ g) : ∀ a ∈ outs,
      Filed (Exchange.after ⟨n, request⟩) (base.next ⟨n, request⟩) (g.add ⟨n, request⟩) a := by
  intro a ha
  obtain ⟨l, hfollows⟩ := h.follows
  cases hhead : n.head with
  | none =>
    -- nothing was handed out before the first packet
    rw [h.blank (by rw [(hfollows.fresh hhead).2.2])] at ha
    cases ha
  | some head => exact (h.filed a ha).next hfollows ht h.opened hbooked hhead

theorem Inventory.append (h : Inventory history t n base g outs) (ht : t < 2 ^ 47)
    {request : Request} (hbooked : Booked history (t + 1) ⟨n, request⟩ g) {news : List HandOut}
    (hblank : (g.add ⟨n, request⟩).first = none → news = [])
    (hfiled : ∀ b ∈ news,
      Filed (Exchange.after ⟨n, request⟩) (base.next ⟨n, request⟩) (g.add ⟨n, request⟩) b)
    (hnews : news.Pairwise HandOut.Apart) (hapart : ∀ a ∈ outs, ∀ b ∈ news, a.Apart b) :
    Inventory history (t + 1) (Exchange.after ⟨n, request⟩) (base.next ⟨n, request⟩)
      (g.add ⟨n, request⟩) (outs ++ news) := by
  obtain ⟨l, hfollows⟩ := h.follows
  obtain ⟨l', hnext⟩ := hbooked.follows
  constructor
  · exact ⟨l', hnext⟩
  · exact h.opened.next hfollows hnext
  · intro hnone
    rw [h.blank (Ledger.first_eq_none_of_add hnone), hblank hnone, List.append_nil]
  · intro a ha
    rcases List.mem_append.mp ha with ha | ha
    · exact h.filed_after ht hbooked a ha
    · exact hfiled a ha
  · exact List.pairwise_append.mpr ⟨h.apart, hnews, hapart⟩

theorem Inventory.step_forward (h : Inventory history t n base g outs) (ht : t + 1 < 2 ^ 47)
    (p : Packet) :
    Inventory history (t + 1) (Exchange.after ⟨n, .forward p⟩) (base.next ⟨n, .forward p⟩)
      (g.add ⟨n, .forward p⟩)
      (outs ++ Exchange.handOuts ⟨n, .forward p⟩ (base.next ⟨n, .forward p⟩)) := by
  obtain ⟨l, hfollows⟩ := h.follows
  have hbooked := hfollows.booked (by omega) (.forward p)
  obtain ⟨l', hnext⟩ := hbooked.follows
  have hopened := h.opened.next hfollows hnext
  rw [Exchange.handOuts_forward]
  cases hplaced : Exchange.placed ⟨n, .forward p⟩ with
  | none =>
    rw [Option.map_none, Option.toList_none]
    apply h.append (by omega) hbooked <;> simp
  | some spot =>
    obtain ⟨-, hslotted⟩ := hbooked.placed spot hplaced
    rw [Option.map_some, Option.toList_some]
    apply h.append (by omega) hbooked
    · intro hnone
      obtain ⟨head, hhead, -⟩ := hslotted.behind
      obtain ⟨f, hfirst, -⟩ := (hnext.led head hhead).first
      rw [hnone] at hfirst
      cases hfirst
    · intro b hb
      obtain rfl := List.mem_singleton.mp hb
      exact .packet spot hslotted
    · exact List.pairwise_singleton _ _
    · intro a ha b hb
      obtain rfl := List.mem_singleton.mp hb
      exact (h.filed_after (by omega) hbooked a ha).apart hnext ht hopened hslotted

theorem Inventory.step_inject (h : Inventory history t n base g outs) (ht : t + 1 < 2 ^ 47)
    (count : BitVec 16) :
    Inventory history (t + 1) (Exchange.after ⟨n, .inject count⟩) (base.next ⟨n, .inject count⟩)
      (g.add ⟨n, .inject count⟩)
      (outs ++ Exchange.handOuts ⟨n, .inject count⟩ (base.next ⟨n, .inject count⟩)) := by
  obtain ⟨l, hfollows⟩ := h.follows
  have hbooked := hfollows.booked (by omega) (.inject count)
  rw [Exchange.handOuts_inject]
  cases hhead : n.head with
  | none =>
    have hreserved : Exchange.reserved ⟨n, .inject count⟩ = [] := by
      rw [Exchange.reserved_inject, hfollows.reserve_of_none (by omega) hhead count]
      rfl
    rw [hreserved, List.map_nil]
    apply h.append (by omega) hbooked <;> simp
  | some head =>
    have hreserved := hfollows.reserved (by omega) hhead count
    have hled := hfollows.led head hhead
    obtain ⟨f, hfirst, h0, hf, hspans, hpos⟩ := hled.first
    have hmono : g.slot f ≤ g.slot (head.toNat + 1) := g.slot_mono (by omega)
    have hnear := hled.near
    apply h.append (by omega) hbooked
    · intro hnone
      rw [Ledger.first_eq_none_of_add hnone] at hfirst
      cases hfirst
    · intro b hb
      obtain ⟨m, hm, rfl⟩ := List.mem_map.mp hb
      apply Filed.padding
      rw [Ledger.add_inject]
      simp only [Exchange.burst, hhead, Option.elim_some]
      exact g.mem_numbers_reserve _ (List.mem_map_of_mem hm)
    · -- the slots after the head grow by one, and stay within the signed range
      rw [hreserved, List.map_map, List.pairwise_map]
      apply List.pairwise_lt_range.imp_of_mem
      intro i j hi hj hlt
      have hj := List.mem_range.mp hj
      exact HandOut.apart_padding rfl (by omega) (by omega) (by omega)
    · intro a ha b hb
      rw [hreserved, List.map_map] at hb
      obtain ⟨i, hi, rfl⟩ := List.mem_map.mp hb
      have hi := List.mem_range.mp hi
      obtain ⟨y, hy, hlow, hlt⟩ := (h.filed a ha).below hfollows (by omega) hhead
      exact HandOut.apart_padding hy hlow (by omega) (by omega)

theorem Inventory.step (h : Inventory history t n base g outs) (ht : t + 1 < 2 ^ 47)
    (request : Request) :
    Inventory history (t + 1) (Exchange.after ⟨n, request⟩) (base.next ⟨n, request⟩)
      (g.add ⟨n, request⟩) (outs ++ Exchange.handOuts ⟨n, request⟩ (base.next ⟨n, request⟩)) := by
  cases request with
  | forward p => exact h.step_forward ht p
  | inject count => exact h.step_inject ht count
  | restart =>
    obtain ⟨l, hfollows⟩ := h.follows
    rw [Exchange.handOuts_restart]
    apply h.append (by omega) (hfollows.booked (by omega) .restart) <;> simp

theorem inventory_run (history : ℕ) (requests : List Request) (hlen : requests.length < 2 ^ 47) :
    ∃ g, Inventory history requests.length ((new history).after requests)
      (((new history).exchanges requests).foldl Base.next {}) g
      (handOuts {} ((new history).exchanges requests)) := by
  induction requests using List.reverseRecOn with
  | nil =>
    refine ⟨{}, follows_new history, ⟨rfl, ?_⟩, fun _ => rfl, ?_, List.Pairwise.nil⟩
    · intro o ho
      cases ho
    · intro a ha
      cases ha
  | append_singleton rest request ih =>
    rw [List.length_append, List.length_singleton] at hlen
    obtain ⟨g, hinventory⟩ := ih (by omega)
    rw [exchanges_concat, after_concat, handOuts_concat, List.foldl_append, List.length_append,
      List.length_singleton]
    exact ⟨_, hinventory.step (by omega) request⟩

/-- What a run hands out is handed out once, except for numbers to which a packet falls back. -/
theorem numbers_unique_iff (history : ℕ) (requests : List Request)
    (hlen : requests.length < 2 ^ 47) :
    let outs := handOuts {} ((new history).exchanges requests)
    outs.Pairwise (fun a b => ¬a.Same b → a.number ≠ b.number) ↔
      outs.Pairwise (fun a b => ¬a.Same b → ¬b.FallsBackTo a.number) := by
  intro outs
  obtain ⟨g, hinventory⟩ := inventory_run history requests hlen
  constructor
  · intro hunique
    refine (hunique.and hinventory.apart).imp fun h hsame hfall => ?_
    exact h.1 hsame ((h.2 hsame).mpr hfall)
  · intro hfalls
    refine (hfalls.and hinventory.apart).imp fun h hsame heq => ?_
    exact h.1 hsame ((h.2 hsame).mp heq)

/-- The second stream starts with number 900, and its packets after that come late. -/
private def inOrder : List Request :=
  [.forward ⟨1, 10, 0, [1], 0⟩, .inject 2, .restart, .forward ⟨1, 900, 0, [1], 0⟩,
    .forward ⟨1, 902, 0, [1], 0⟩, .forward ⟨1, 901, 0, [1], 0⟩]

theorem numbers_unique_inOrder :
    inOrder.length < 2 ^ 47 ∧ (handOuts {} ((new 4).exchanges inOrder)).Pairwise
      (fun a b => ¬a.Same b → a.number ≠ b.number) := by
  have hlen : inOrder.length < 2 ^ 47 := by decide
  exact ⟨hlen, (numbers_unique_iff 4 inOrder hlen).mpr (by decide)⟩

/-- The second stream starts with number 900, and number 899 comes after it. -/
private def swapped : List Request :=
  [.forward ⟨1, 10, 0, [0x61], 0⟩, .forward ⟨1, 11, 0, [0x61], 0⟩, .restart,
    .forward ⟨1, 900, 0, [0x61], 0⟩, .forward ⟨1, 899, 0, [0x61], 0⟩]

/-- The late packet gets the last number of the first stream once more. -/
theorem numbers_not_unique_swapped :
    ¬(handOuts {} ((new 16).exchanges swapped)).Pairwise
      (fun a b => ¬a.Same b → a.number ≠ b.number) := by
  decide

end Renumber.Numbering
