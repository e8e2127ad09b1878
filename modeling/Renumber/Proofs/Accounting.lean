import Renumber.Proofs.Consistency

/-! The counters of a numbering tell what became of every request. -/
namespace Renumber

/-- What can become of a packet. -/
inductive Fate where
  | forwarded
  | dropped
  | rejected
  | duplicate
  deriving DecidableEq, Repr

/-- An inconsistency is no fate of a packet. -/
def Refusal.fate : Refusal → Option Fate
  | .paddingDropped => some .dropped
  | .beforeStart _ | .excluded _ | .tooOld _ => some .rejected
  | .duplicate _ => some .duplicate
  | .inconsistent _ => none

def Fate.of {α : Type} : Except Refusal α → Option Fate
  | .ok _ => some .forwarded
  | .error refusal => refusal.fate

theorem Fate.of_map {α β : Type} (f : α → β) (answer : Except Refusal α) :
    Fate.of (answer.map f) = Fate.of answer := by
  cases answer <;> rfl

theorem Fate.isSome_of_consistent {α : Type} {answer : Except Refusal α}
    (h : Refusal.Consistent answer) : (Fate.of answer).isSome := by
  rcases answer with refusal | a
  · cases refusal with
    | inconsistent cause => exact absurd rfl (h cause)
    | _ => rfl
  · rfl

namespace Stats

/-- The counter of the packets with one fate. -/
def count (s : Stats) : Fate → UInt64
  | .forwarded => s.forwarded
  | .dropped => s.paddingDropped
  | .rejected => s.rejected
  | .duplicate => s.duplicate

theorem Within.count {s : Stats} {t : ℕ} (h : s.Within t) (fate : Fate) :
    (s.count fate).toNat ≤ t := by
  cases fate with
  | forwarded => exact h.forwarded
  | dropped => exact h.paddingDropped
  | rejected => exact h.rejected
  | duplicate => exact h.duplicate

/-- A packet adds one to the counter of its fate and to no other. -/
theorem count_tally (s : Stats) (head : Option (BitVec 64)) (answer : Except Refusal Placement)
    (fate : Fate) :
    (s.tally head answer).count fate =
      s.count fate + if Fate.of answer = some fate then 1 else 0 := by
  rcases answer with refusal | spot
  · cases refusal <;> cases fate <;> simp [tally, count, Fate.of, Refusal.fate]
  · unfold tally
    simp only
    split <;> cases fate <;> simp [count, Fate.of]

theorem outOfOrder_tally (s : Stats) (head : Option (BitVec 64))
    (answer : Except Refusal Placement) :
    (s.tally head answer).outOfOrder = s.outOfOrder +
      if answer.toOption.any fun spot => head.any (spot.incoming < ·) then 1 else 0 := by
  rcases answer with refusal | spot
  · cases refusal <;> simp [tally, Except.toOption]
  · by_cases hlate : head.any (spot.incoming < ·) = true
    · simp [tally, Except.toOption, hlate]
    · simp [tally, Except.toOption, hlate]

theorem paddingInjected_tally (s : Stats) (head : Option (BitVec 64))
    (answer : Except Refusal Placement) :
    (s.tally head answer).paddingInjected = s.paddingInjected := by
  rcases answer with refusal | spot
  · cases refusal <;> rfl
  · unfold tally
    simp only
    split <;> rfl

theorem restarts_tally (s : Stats) (head : Option (BitVec 64))
    (answer : Except Refusal Placement) : (s.tally head answer).restarts = s.restarts := by
  rcases answer with refusal | spot
  · cases refusal <;> rfl
  · unfold tally
    simp only
    split <;> rfl

theorem toNat_add_ite {c : UInt64} (h : c.toNat + 1 < 2 ^ 64) (b : Prop) [Decidable b] :
    (c + if b then 1 else 0).toNat = c.toNat + if b then 1 else 0 := by
  split
  · rw [UInt64.toNat_add, UInt64.toNat_one, Nat.mod_eq_of_lt h]
  · rw [UInt64.add_zero, Nat.add_zero]

end Stats

namespace Numbering

/-- What became of the packet, if the request was one. -/
def Reply.fate : Reply → Option Fate
  | .forwarded answer => Fate.of answer
  | _ => none

/-- How many numbers were reserved. -/
def Reply.reserved : Reply → ℕ
  | .injected (.ok numbers) => numbers.length
  | _ => 0

namespace Exchange

/-- A packet is forwarded whose extended incoming number lies below the head. -/
def isBehind (x : Exchange) : Bool :=
  x.reply.fate = some .forwarded && x.extended.any fun e => x.before.head.any (e < ·)

/-- Every counter goes up by what happened. -/
structure Counted (x : Exchange) : Prop where
  fate : ∀ fate, (x.after.stats.count fate).toNat =
    (x.before.stats.count fate).toNat + if x.reply.fate = some fate then 1 else 0
  behind : x.after.stats.outOfOrder.toNat =
    x.before.stats.outOfOrder.toNat + if x.isBehind ∧ ¬x.rebases then 1 else 0
  reserved : x.after.stats.paddingInjected.toNat =
    x.before.stats.paddingInjected.toNat + x.reply.reserved
  restarts : x.after.stats.restarts.toNat =
    x.before.stats.restarts.toNat + if x.rebases then 1 else 0

theorem fate_forward (n : Numbering) (p : Packet) :
    (reply ⟨n, .forward p⟩).fate = Fate.of (n.receive p).value.2 := by
  rw [reply_forward, Reply.fate, Fate.of_map]

end Exchange

variable {history t : ℕ} {n : Numbering} {l : Line} {g : Ledger} {p : Packet} {e : BitVec 64}

/-- A packet is placed under the extended number with which it came. -/
theorem place_incoming {spot : Placement} (h : (n.place p e).value.2 = .ok spot) :
    spot.incoming = e := by
  rw [value_place] at h
  split at h
  · cases h
  split at h
  · rw [value_placeLate] at h
    split at h <;> cases h
    rfl
  split at h
  · rw [value_dropPadding] at h
    split at h <;> cases h
  · rw [value_placeHead] at h
    split at h <;> cases h
    rfl

theorem extended_of_ok (hnext : n.nextOutgoing.value = .ok n.upcoming) {spot : Placement}
    (h : (n.receive p).value.2 = .ok spot) :
    Exchange.extended ⟨n, .forward p⟩ = some spot.incoming := by
  rw [value_receive hnext] at h
  rw [Exchange.extended_forward]
  split at h
  · cases h
  · next e unwrapper hextend => rw [hextend, place_incoming h]

/-- Only within a stream a packet can come from behind the head. -/
theorem any_facing_head (hnext : n.nextOutgoing.value = .ok n.upcoming) (p : Packet) :
    ((n.receive p).value.2.toOption.any fun spot =>
        (n.facing p).head.any (spot.incoming < ·)) = true ↔
      Exchange.isBehind ⟨n, .forward p⟩ = true ∧ ¬Exchange.rebases ⟨n, .forward p⟩ = true := by
  cases hdue : n.due p with
  | true =>
    have hr : Exchange.rebases ⟨n, .forward p⟩ = true := hdue
    rw [facing_of_due hdue, hr]
    cases (n.receive p).value.2 <;> simp [Except.toOption]
  | false =>
    have hr : Exchange.rebases ⟨n, .forward p⟩ = false := hdue
    rw [facing_of_not_due hdue, hr, Exchange.isBehind, Exchange.fate_forward]
    cases hanswer : (n.receive p).value.2 with
    | error refusal => cases refusal <;> simp [Except.toOption, Fate.of, Refusal.fate]
    | ok spot => simp [Except.toOption, Fate.of, extended_of_ok hnext hanswer]

/-- A reservation counts the numbers with which it is answered. -/
theorem reserve_stats (n : Numbering) (count : BitVec 16) :
    (n.reserve count).value.1.stats = { n.stats with
        paddingInjected := n.stats.paddingInjected +
          UInt64.ofNat (Exchange.reply ⟨n, .inject count⟩).reserved } ∧
      (Exchange.reply ⟨n, .inject count⟩).reserved ≤ count.toNat := by
  rw [Exchange.reply_inject, value_reserve]
  rcases n.nextOutgoing.value with e | _ | next
  · simp [Reply.reserved]
  · simp [Reply.reserved]
  by_cases hc : count = 0
  · simp [hc, Reply.reserved]
  simp only [if_neg hc]
  split
  · simp [Reply.reserved]
  · simp [Reply.reserved]

namespace Follows

theorem counted_inject (hn : n.stats.Within t) (ht : t < 2 ^ 47) (count : BitVec 16) :
    Exchange.Counted ⟨n, .inject count⟩ := by
  obtain ⟨hstats, hle⟩ := reserve_stats n count
  have hinjected := hn.paddingInjected
  have hcount := count.isLt
  have hafter : (Exchange.after ⟨n, .inject count⟩).stats = _ := hstats
  constructor
  · intro fate
    rw [hafter]
    cases fate <;> rfl
  · rw [hafter]
    rfl
  · rw [hafter, UInt64.toNat_add, UInt64.toNat_ofNat_of_lt' (by rw [UInt64.size]; omega),
      Nat.mod_eq_of_lt (by omega)]
  · rw [hafter]
    rfl

theorem counted_forward (h : Follows history t n l g) (ht : t < 2 ^ 47) (hn : n.stats.Within t)
    (p : Packet) : Exchange.Counted ⟨n, .forward p⟩ := by
  have hnext := h.nextOutgoing ht
  have hstats : (Exchange.after ⟨n, .forward p⟩).stats =
      (n.facing p).stats.tally (n.facing p).head (n.receive p).value.2 := receive_stats hnext p
  have hfacing : (n.facing p).stats = { n.stats with
      restarts := n.stats.restarts + if Exchange.rebases ⟨n, .forward p⟩ then 1 else 0 } := by
    cases hdue : n.due p with
    | true => rw [facing_of_due hdue, show Exchange.rebases ⟨n, .forward p⟩ = true from hdue]; rfl
    | false =>
      rw [facing_of_not_due hdue, show Exchange.rebases ⟨n, .forward p⟩ = false from hdue]
      simp
  constructor
  · intro fate
    have hle := hn.count fate
    have hsame : (n.facing p).stats.count fate = n.stats.count fate := by
      rw [hfacing]
      cases fate <;> rfl
    rw [hstats, Stats.count_tally, Stats.toNat_add_ite (by rw [hsame]; omega), hsame,
      Exchange.fate_forward]
  · have hle := hn.outOfOrder
    rw [hstats, Stats.outOfOrder_tally, Stats.toNat_add_ite (by rw [hfacing]; simp only; omega),
      hfacing]
    simp only [any_facing_head hnext]
  · rw [hstats, Stats.paddingInjected_tally, hfacing]
    rfl
  · have hle := hn.restarts
    rw [hstats, Stats.restarts_tally, hfacing, Stats.toNat_add_ite (by omega)]

theorem counted (h : Follows history t n l g) (ht : t < 2 ^ 47) (hn : n.stats.Within t)
    (request : Request) : Exchange.Counted ⟨n, request⟩ := by
  cases request with
  | forward p => exact h.counted_forward ht hn p
  | inject count => exact counted_inject hn ht count
  | restart => exact ⟨fun _ => rfl, rfl, rfl, rfl⟩

end Follows

/-- The counters are the numbers of what happened in a run. -/
structure Tallied (s : Stats) (xs : List Exchange) : Prop where
  fate : ∀ fate, (s.count fate).toNat = xs.countP fun x => x.reply.fate = some fate
  behind : s.outOfOrder.toNat = xs.countP fun x => x.isBehind ∧ ¬x.rebases
  reserved : s.paddingInjected.toNat = (xs.map fun x => x.reply.reserved).sum
  restarts : s.restarts.toNat = xs.countP Exchange.rebases

theorem Tallied.step {xs : List Exchange} {x : Exchange} (h : Tallied x.before.stats xs)
    (hx : x.Counted) : Tallied x.after.stats (xs ++ [x]) := by
  constructor
  · intro fate
    rw [hx.fate, h.fate, List.countP_append, List.countP_singleton]
    simp only [decide_eq_true_eq]
  · rw [hx.behind, h.behind, List.countP_append, List.countP_singleton]
    simp only [decide_eq_true_eq]
  · rw [hx.reserved, h.reserved, List.map_append, List.sum_append, List.map_singleton,
      List.sum_singleton]
  · rw [hx.restarts, h.restarts, List.countP_append, List.countP_singleton]

theorem tallied_run (history : ℕ) (requests : List Request) (hlen : requests.length < 2 ^ 47) :
    Tallied ((new history).after requests).stats ((new history).exchanges requests) := by
  induction requests using List.reverseRecOn with
  | nil => exact ⟨fun fate => by cases fate <;> rfl, rfl, rfl, rfl⟩
  | append_singleton rest request ih =>
    rw [List.length_append, List.length_singleton] at hlen
    obtain ⟨l, g, h⟩ := follows_run history rest (by omega)
    have hwithin := within_run history rest (by omega)
    rw [after_concat, exchanges_concat]
    exact (ih (by omega)).step (h.counted (by omega) hwithin request)

/-- The request is a packet. -/
def Request.isForward : Request → Bool
  | .forward _ => true
  | _ => false

theorem isSome_fate {x : Exchange} (h : x.reply.Consistent) :
    x.reply.fate.isSome = x.request.isForward := by
  obtain ⟨n, request⟩ := x
  cases request with
  | forward p =>
    rw [Exchange.consistent_forward_iff] at h
    rw [Exchange.fate_forward]
    exact Fate.isSome_of_consistent h
  | inject count => rfl
  | restart => rfl

theorem map_request_exchanges (n : Numbering) (requests : List Request) :
    (n.exchanges requests).map Exchange.request = requests := by
  induction requests generalizing n with
  | nil => rfl
  | cons request rest ih => rw [exchanges, List.map_cons, ih]

/-- Every packet has one fate. -/
theorem countP_fates (xs : List Exchange) (h : ∀ x ∈ xs, x.reply.Consistent) :
    xs.countP (fun x => x.reply.fate = some .forwarded) +
        xs.countP (fun x => x.reply.fate = some .dropped) +
        xs.countP (fun x => x.reply.fate = some .rejected) +
        xs.countP (fun x => x.reply.fate = some .duplicate) =
      (xs.map Exchange.request).countP Request.isForward := by
  induction xs with
  | nil => rfl
  | cons x rest ih =>
    have hfirst := isSome_fate (h x (List.mem_cons_self ..))
    have hrest := ih fun y hy => h y (List.mem_cons_of_mem _ hy)
    rw [List.map_cons]
    simp only [List.countP_cons, ← hfirst, ← hrest]
    rcases x.reply.fate with _ | fate
    · simp
    · cases fate <;> simp <;> omega

/-- What a source has asked for since its last packet, and which source it was. -/
structure Upstream where
  restart : Bool := false
  ssrc : Option (BitVec 32) := none

namespace Upstream

def next (u : Upstream) : Request → Upstream
  | .forward p => { ssrc := some p.ssrc }
  | .inject _ => u
  | .restart => { u with restart := true }

/-- A packet after a restart, or from another source than the last one. -/
def renews (u : Upstream) : Request → Bool
  | .forward p => u.restart || u.ssrc.any (· != p.ssrc)
  | _ => false

def renewals (u : Upstream) : List Request → ℕ
  | [] => 0
  | request :: rest => (if u.renews request then 1 else 0) + (u.next request).renewals rest

/-- The numbering knows of the source what it needs to know. -/
structure Faces (u : Upstream) (n : Numbering) : Prop where
  restart : n.restartPending = u.restart
  ssrc : n.ssrc = u.ssrc

variable {u : Upstream}

theorem Faces.rebases (h : u.Faces n) (request : Request) :
    Exchange.rebases ⟨n, request⟩ = u.renews request := by
  cases request with
  | forward p =>
    change n.due p = _
    rw [due, h.restart, h.ssrc, renews]
  | inject count => rfl
  | restart => rfl

theorem Faces.next (h : u.Faces n) (hnext : n.nextOutgoing.value = .ok n.upcoming)
    (request : Request) : (u.next request).Faces (Exchange.after ⟨n, request⟩) := by
  cases request with
  | forward p =>
    have hfacing : (n.facing p).restartPending = false ∧ (n.facing p).ssrc = some p.ssrc := by
      cases hdue : n.due p with
      | true =>
        rw [facing_of_due hdue]
        exact ⟨rfl, rfl⟩
      | false =>
        rw [facing_of_not_due hdue]
        rw [due, Bool.or_eq_false_iff] at hdue
        exact ⟨hdue.1, rfl⟩
    rw [Exchange.after_forward, value_receive hnext]
    split
    · exact ⟨hfacing.1, hfacing.2⟩
    · next e unwrapper _ =>
      obtain ⟨hssrc, hpending⟩ := place_keeps { n.facing p with unwrapper := unwrapper } p e
      exact ⟨hpending.trans hfacing.1, hssrc.trans hfacing.2⟩
  | inject count =>
    rw [Exchange.after_inject, value_reserve, hnext]
    split
    · exact h
    · exact h
    split
    · exact h
    simp only
    split <;> exact ⟨h.restart, h.ssrc⟩
  | restart => exact ⟨rfl, h.ssrc⟩

end Upstream

theorem countP_rebases {u : Upstream} (h : u.Faces n) (requests : List Request)
    (hall : ∀ x ∈ n.exchanges requests, x.before.nextOutgoing.value = .ok x.before.upcoming) :
    (n.exchanges requests).countP Exchange.rebases = u.renewals requests := by
  induction requests generalizing n u with
  | nil => rfl
  | cons request rest ih =>
    have hnext := hall _ (List.mem_cons_self ..)
    rw [exchanges, List.countP_cons, h.rebases, Upstream.renewals, Nat.add_comm,
      ih (h.next hnext request) fun x hx => hall x (List.mem_cons_of_mem _ hx)]

/-- Each counter of a run is the number of requests that ended as it says. Every packet is
forwarded, dropped, rejected or a duplicate and counted once. A forwarded one counts as out of order
if it starts no new stream and comes from behind the head. Every reserved number counts, and a new
stream counts once however often it was announced. -/
theorem stats_account (history : ℕ) (requests : List Request) (hlen : requests.length < 2 ^ 47) :
    let s := ((new history).after requests).stats
    let replies := ((new history).serveAll requests).value.2
    s.forwarded.toNat = replies.countP (fun reply => reply.fate = some .forwarded) ∧
      s.paddingDropped.toNat = replies.countP (fun reply => reply.fate = some .dropped) ∧
      s.rejected.toNat = replies.countP (fun reply => reply.fate = some .rejected) ∧
      s.duplicate.toNat = replies.countP (fun reply => reply.fate = some .duplicate) ∧
      s.forwarded.toNat + s.paddingDropped.toNat + s.rejected.toNat + s.duplicate.toNat =
        requests.countP Request.isForward ∧
      s.outOfOrder.toNat =
        ((new history).exchanges requests).countP (fun x => x.isBehind ∧ ¬x.rebases) ∧
      s.paddingInjected.toNat = (replies.map Reply.reserved).sum ∧
      s.restarts.toNat = Upstream.renewals {} requests := by
  intro s replies
  have h : Tallied s ((new history).exchanges requests) := tallied_run history requests hlen
  have hreplies : replies = ((new history).exchanges requests).map Exchange.reply :=
    replies_eq (new history) requests
  have hcount : ∀ fate, (s.count fate).toNat =
      replies.countP fun reply => reply.fate = some fate := by
    intro fate
    rw [h.fate, hreplies, List.countP_map]
    rfl
  refine ⟨hcount .forwarded, hcount .dropped, hcount .rejected, hcount .duplicate, ?_, h.behind, ?_,
    ?_⟩
  · have hfates := countP_fates ((new history).exchanges requests)
      fun x hx => (consistent_of_mem hlen hx).2
    rw [map_request_exchanges, ← h.fate, ← h.fate, ← h.fate, ← h.fate] at hfates
    exact hfates
  · rw [h.reserved, hreplies, List.map_map]
    rfl
  · rw [h.restarts]
    refine countP_rebases ⟨rfl, rfl⟩ requests fun x hx => ?_
    obtain ⟨t, ht, l, g, hfollows⟩ := follows_of_mem hlen.le hx
    exact hfollows.nextOutgoing (by omega)

/-- Every fate occurs, and two announcements and another source make two new streams. -/
private def eventful : List Request :=
  [.forward ⟨1, 10, 0, [1], 0⟩, .forward ⟨1, 9, 0, [1], 0⟩, .forward ⟨1, 12, 0, [], 0⟩,
    .forward ⟨1, 12, 0, [1], 0⟩, .forward ⟨1, 11, 0, [1], 0⟩, .inject 3, .forward ⟨1, 65000, 0, [1], 0⟩,
    .restart, .restart, .forward ⟨1, 7, 0, [1], 0⟩, .forward ⟨2, 7, 0, [1], 0⟩]

theorem stats_account_eventful :
    eventful.length < 2 ^ 47 ∧
      ((new 4).after eventful).stats =
        { forwarded := 5, outOfOrder := 2, paddingDropped := 1, paddingInjected := 3, rejected := 1
          duplicate := 1, restarts := 2 } ∧
      eventful.countP Request.isForward = 8 ∧
      ((new 4).exchanges eventful).countP (fun x => x.isBehind ∧ ¬x.rebases) = 2 ∧
      Upstream.renewals {} eventful = 2 := by
  have hlen : eventful.length < 2 ^ 47 := by decide
  have hstats : ((new 4).after eventful).stats =
      { forwarded := 5, outOfOrder := 2, paddingDropped := 1, paddingInjected := 3, rejected := 1
        duplicate := 1, restarts := 2 } := by decide
  obtain ⟨-, -, -, -, hpackets, hbehind, -, hrenewals⟩ := stats_account 4 eventful hlen
  rw [hstats] at hpackets hbehind hrenewals
  exact ⟨hlen, hstats, hpackets.symm, hbehind.symm, hrenewals.symm⟩

/-- The first packet of a new stream may lie below the head of the old one. -/
private def steppedBack : List Request :=
  [.forward ⟨1, 100, 0, [0x61], 0⟩, .restart, .forward ⟨1, 7, 0, [0x61], 0⟩]

/-- It is not counted as out of order. -/
theorem outOfOrder_ne_steppedBack :
    ((new 16).after steppedBack).stats.outOfOrder.toNat ≠
      ((new 16).exchanges steppedBack).countP Exchange.isBehind := by
  decide

end Numbering

end Renumber
