import Renumber.Proofs.Consistency
import Renumber.Proofs.Overflow

/-! How much a numbering remembers decides nothing but which late packets are too old for it. -/
namespace Renumber

namespace History

variable {k v : ℕ} {short long : History k v}

/-- The shorter history has the newest closed ranges of the longer one, and differs in nothing
else. -/
structure Forgets (short long : History k v) : Prop where
  capacity : short.capacity ≤ long.capacity
  closed : short.closed = long.closed.take short.capacity
  start : short.start = long.start
  value : short.value = long.value

/-- A scan of the newest ranges alone finds the same, unless it runs out of ranges. -/
theorem getBefore_take (key next : BitVec k) (closed : List (Span k v)) (n : ℕ) :
    getBefore key next (closed.take n) = getBefore key next closed ∨
      getBefore key next (closed.take n) = .error .tooOld ∨
      getBefore key next (closed.take n) = .error .notFound := by
  induction closed generalizing next n with
  | nil =>
    rw [List.take_nil]
    exact Or.inl rfl
  | cons span older ih =>
    cases n with
    | zero =>
      -- the two scans part only here, where the shorter one has no range left
      right
      simp only [List.take_zero, getBefore]
      split
      · exact Or.inl rfl
      · exact Or.inr rfl
    | succ n =>
      simp only [List.take_succ_cons, getBefore]
      split
      · exact Or.inl rfl
      split
      · exact Or.inl rfl
      · exact ih span.first n

namespace Forgets

theorem new {few many : ℕ} (hle : max few 1 ≤ max many 1) :
    (History.new few : History k v).Forgets (.new many) := ⟨hle, List.take_nil.symm, rfl, rfl⟩

theorem reset (h : short.Forgets long) (value : BitVec v) :
    (short.reset value).Forgets (long.reset value) := ⟨h.capacity, List.take_nil.symm, rfl, rfl⟩

theorem lower (h : short.Forgets long) (delta : BitVec v) :
    (short.lower delta).Forgets (long.lower delta) :=
  ⟨h.capacity, h.closed, h.start, congrArg (· - delta) h.value⟩

theorem advance (h : short.Forgets long) (stop next : BitVec k) (value : BitVec v) :
    (short.advance stop next value).Forgets (long.advance stop next value) := by
  unfold History.advance
  rw [h.start]
  split
  · exact ⟨h.capacity, h.closed, rfl, rfl⟩
  · refine ⟨h.capacity, ?_, rfl, rfl⟩
    simp only [List.take_take, Nat.min_eq_left h.capacity, h.value, h.closed]
    cases short.capacity with
    | zero => rfl
    | succ c => simp only [List.take_succ_cons, List.take_take, Nat.min_eq_left (Nat.le_succ c)]

theorem exclude (h : short.Forgets long) {first stop : BitVec k} {changed : History k v}
    (hs : (short.exclude first stop).value = .ok changed) :
    ∃ changed', (long.exclude first stop).value = .ok changed' ∧ changed.Forgets changed' := by
  rw [value_exclude] at hs ⊢
  rw [← h.start]
  split at hs
  · cases hs
  · next hok =>
    rw [if_neg hok, ← h.value]
    obtain rfl := Except.ok.inj hs
    exact ⟨_, rfl, h.advance ..⟩

theorem lowerFrom (h : short.Forgets long) {key : BitVec k} {delta : BitVec v}
    {changed : History k v} (hs : (short.lowerFrom key delta).value = .ok changed) :
    ∃ changed', (long.lowerFrom key delta).value = .ok changed' ∧ changed.Forgets changed' := by
  rw [value_lowerFrom] at hs ⊢
  rw [← h.start]
  split at hs
  · cases hs
  · next hok =>
    rw [if_neg hok, ← h.value]
    obtain rfl := Except.ok.inj hs
    exact ⟨_, rfl, h.advance ..⟩

theorem get (h : short.Forgets long) (key : BitVec k) : short.get key = long.get key ∨
    short.get key = .error .tooOld ∨ short.get key = .error .notFound := by
  unfold History.get
  rw [h.start, h.value, h.closed]
  split
  · exact Or.inl rfl
  · exact getBefore_take key long.start long.closed short.capacity

theorem get_of_ok (h : short.Forgets long) {key : BitVec k} {found : BitVec v}
    (hfound : short.get key = .ok found) : long.get key = .ok found := by
  rcases h.get key with hget | hget | hget
  · exact hget.symm.trans hfound
  · cases hget.symm.trans hfound
  · cases hget.symm.trans hfound

end Forgets

end History

/-- The counters that tell nothing of which late packets were too old are equal. -/
structure Stats.Agrees (s s' : Stats) : Prop where
  paddingDropped : s.paddingDropped = s'.paddingDropped
  paddingInjected : s.paddingInjected = s'.paddingInjected
  duplicate : s.duplicate = s'.duplicate
  restarts : s.restarts = s'.restarts

namespace Numbering

open Refusal (Consistent)

/-- The first numbering remembers less. Both stand at the same place of the stream. -/
structure Abreast (short long : Numbering) : Prop where
  offsets : short.offsets.Forgets long.offsets
  unwrapper : short.unwrapper = long.unwrapper
  ssrc : short.ssrc = long.ssrc
  head : short.head = long.head
  lastOutgoing : short.lastOutgoing = long.lastOutgoing
  restartPending : short.restartPending = long.restartPending
  stats : short.stats.Agrees long.stats

/-- The answer to a packet under a shorter history beside that under a longer one: the same, or too
old for a late packet that the longer one places or finds left out. -/
inductive Shortened (extended head : Option (BitVec 64)) :
    Except Refusal Placement → Except Refusal Placement → Prop
  | same (answer : Except Refusal Placement) : Shortened extended head answer answer
  | forgotten (k newest : BitVec 64) (answer : Except Refusal Placement) (hk : extended = some k)
      (hnewest : head = some newest) (late : k < newest)
      (known : answer = .error (.excluded k) ∨ ∃ spot, answer = .ok spot) :
      Shortened extended head (.error (.tooOld k)) answer

variable {short long : Numbering} {p : Packet} {e : BitVec 64}

namespace Abreast

theorem new {few many : ℕ} (hle : max few 1 ≤ max many 1) :
    Abreast (Numbering.new few) (Numbering.new many) :=
  ⟨.new hle, rfl, rfl, rfl, rfl, rfl, rfl, rfl, rfl, rfl⟩

theorem upcoming (h : Abreast short long) (hs : short.nextOutgoing.value = .ok short.upcoming)
    (hl : long.nextOutgoing.value = .ok long.upcoming) : short.upcoming = long.upcoming := by
  have hnext : short.nextOutgoing.value = long.nextOutgoing.value := by
    rw [value_nextOutgoing] at hs ⊢
    rw [value_nextOutgoing, ← h.head, ← h.lastOutgoing]
    cases hhead : short.head with
    | none => rfl
    | some head =>
      simp only [hhead] at hs ⊢
      cases hget : short.offsets.get (head + 1) with
      | error cause =>
        rw [hget] at hs
        cases hs
      | ok offset => rw [h.offsets.get_of_ok hget]
  exact Except.ok.inj (hs.symm.trans (hnext.trans hl))

theorem facing (h : Abreast short long) (hup : short.upcoming = long.upcoming) (p : Packet) :
    Abreast (short.facing p) (long.facing p) := by
  have hdue : short.due p = long.due p := by
    rw [due, due, h.restartPending, h.ssrc]
  obtain ⟨hdropped, hinjected, hduplicate, hrestarts⟩ := h.stats
  cases hd : long.due p with
  | true =>
    rw [facing_of_due hd, facing_of_due (hdue.trans hd), hup]
    exact ⟨h.offsets.reset _, rfl, rfl, rfl, h.lastOutgoing, rfl, hdropped, hinjected, hduplicate,
      congrArg (· + 1) hrestarts⟩
  | false =>
    rw [facing_of_not_due hd, facing_of_not_due (hdue.trans hd)]
    exact ⟨h.offsets, h.unwrapper, rfl, h.head, h.lastOutgoing, h.restartPending, h.stats⟩

theorem placeLate (h : Abreast short long) {ssrc : BitVec 32} {s : BitVec 16}
    {newest : BitVec 64} (hnewest : short.head = some newest) (late : e < newest)
    (hs : Consistent (short.placeLate ssrc s e).value.2)
    (hl : Consistent (long.placeLate ssrc s e).value.2) :
    Shortened (some e) short.head (short.placeLate ssrc s e).value.2
        (long.placeLate ssrc s e).value.2 ∧
      Abreast (short.placeLate ssrc s e).value.1 (long.placeLate ssrc s e).value.1 := by
  obtain ⟨hdropped, hinjected, hduplicate, hrestarts⟩ := h.stats
  -- whatever else the two states count
  have hafter : ∀ f o r f' o' r',
      Abreast
        { short with stats := { short.stats with forwarded := f, outOfOrder := o, rejected := r } }
        { long with
          stats := { long.stats with forwarded := f', outOfOrder := o', rejected := r' } } :=
    fun _ _ _ _ _ _ => ⟨h.offsets, h.unwrapper, h.ssrc, h.head, h.lastOutgoing, h.restartPending,
      hdropped, hinjected, hduplicate, hrestarts⟩
  rw [value_placeLate] at hs hl ⊢
  rw [value_placeLate]
  rcases h.offsets.get e with hget | hget | hget
  · rw [hget]
    rcases long.offsets.get e with cause | offset
    · cases cause <;> exact ⟨.same _, hafter ..⟩
    · exact ⟨.same _, hafter ..⟩
  · rw [hget]
    rcases hfound : long.offsets.get e with cause | offset
    · rw [hfound] at hl
      cases cause with
      | excluded => exact ⟨.forgotten e newest _ rfl hnewest late (Or.inl rfl), hafter ..⟩
      | tooOld => exact ⟨.same _, hafter ..⟩
      | reversed => exact absurd rfl (hl _)
      | notFound => exact absurd rfl (hl _)
    · exact ⟨.forgotten e newest _ rfl hnewest late (Or.inr ⟨_, rfl⟩), hafter ..⟩
  · rw [hget] at hs
    exact absurd rfl (hs _)

theorem dropPadding (h : Abreast short long) (hs : Consistent (short.dropPadding e).value.2) :
    (short.dropPadding e).value.2 = (long.dropPadding e).value.2 ∧
      Abreast (short.dropPadding e).value.1 (long.dropPadding e).value.1 := by
  rw [value_dropPadding] at hs ⊢
  rw [value_dropPadding]
  cases hexclude : (short.offsets.exclude e (e + 1)).value with
  | error cause =>
    rw [hexclude] at hs
    exact absurd rfl (hs cause)
  | ok offsets =>
    obtain ⟨offsets', hexclude', hoffsets⟩ := h.offsets.exclude hexclude
    obtain ⟨hdropped, hinjected, hduplicate, hrestarts⟩ := h.stats
    simp only [hexclude']
    exact ⟨trivial, hoffsets, h.unwrapper, h.ssrc, h.head, h.lastOutgoing, h.restartPending,
      congrArg (· + 1) hdropped, hinjected, hduplicate, hrestarts⟩

theorem placeHead (h : Abreast short long) (hs : Consistent (short.placeHead e).value.2) :
    (short.placeHead e).value.2 = (long.placeHead e).value.2 ∧
      Abreast (short.placeHead e).value.1 (long.placeHead e).value.1 := by
  rw [value_placeHead] at hs ⊢
  rw [value_placeHead]
  cases hget : short.offsets.get e with
  | error cause =>
    rw [hget] at hs
    exact absurd rfl (hs cause)
  | ok offset =>
    obtain ⟨hdropped, hinjected, hduplicate, hrestarts⟩ := h.stats
    rw [h.offsets.get_of_ok hget]
    exact ⟨rfl, h.offsets, h.unwrapper, h.ssrc, h.head, rfl, h.restartPending, hdropped, hinjected,
      hduplicate, hrestarts⟩

theorem place (h : Abreast short long) (hs : Consistent (short.place p e).value.2)
    (hl : Consistent (long.place p e).value.2) :
    Shortened (some e) short.head (short.place p e).value.2 (long.place p e).value.2 ∧
      Abreast (short.place p e).value.1 (long.place p e).value.1 := by
  rw [value_place] at hs hl ⊢
  rw [value_place]
  rw [← h.head] at hl ⊢
  by_cases hsame : short.head = some e
  · rw [if_pos hsame, if_pos hsame]
    obtain ⟨hdropped, hinjected, hduplicate, hrestarts⟩ := h.stats
    exact ⟨.same _, h.offsets, h.unwrapper, h.ssrc, rfl, h.lastOutgoing, h.restartPending, hdropped,
      hinjected, congrArg (· + 1) hduplicate, hrestarts⟩
  rw [if_neg hsame] at hs hl ⊢
  rw [if_neg hsame]
  by_cases hlate : short.head.any (e < ·) = true
  · rw [if_pos hlate] at hs hl ⊢
    rw [if_pos hlate]
    obtain ⟨newest, hnewest, hlt⟩ := (Option.any_eq_true _ _).mp hlate
    exact h.placeLate hnewest (of_decide_eq_true hlt) hs hl
  rw [if_neg hlate] at hs ⊢
  rw [if_neg hlate]
  have hlead : Abreast { short with head := some e } { long with head := some e } :=
    ⟨h.offsets, h.unwrapper, h.ssrc, rfl, h.lastOutgoing, h.restartPending, h.stats⟩
  by_cases hp : p.isPaddingOnly = true
  · rw [if_pos hp] at hs ⊢
    rw [if_pos hp]
    obtain ⟨hanswer, hafter⟩ := hlead.dropPadding hs
    rw [hanswer]
    exact ⟨.same _, hafter⟩
  · rw [if_neg hp] at hs ⊢
    rw [if_neg hp]
    obtain ⟨hanswer, hafter⟩ := hlead.placeHead hs
    rw [hanswer]
    exact ⟨.same _, hafter⟩

theorem receive (h : Abreast short long) (hs : short.nextOutgoing.value = .ok short.upcoming)
    (hl : long.nextOutgoing.value = .ok long.upcoming) (p : Packet)
    (hcs : Consistent (short.receive p).value.2) (hcl : Consistent (long.receive p).value.2) :
    Shortened (Exchange.extended ⟨long, .forward p⟩) (short.facing p).head
        (short.receive p).value.2 (long.receive p).value.2 ∧
      Abreast (short.receive p).value.1 (long.receive p).value.1 := by
  have hf := h.facing (h.upcoming hs hl) p
  rw [Exchange.extended_forward]
  rw [value_receive hs] at hcs ⊢
  rw [value_receive hl] at hcl ⊢
  rw [← hf.unwrapper] at hcl ⊢
  rcases hext : (short.facing p).unwrapper.extend p.sequenceNumber with ⟨_ | e, unwrapper⟩
  · obtain ⟨hdropped, hinjected, hduplicate, hrestarts⟩ := hf.stats
    exact ⟨.same _, hf.offsets, rfl, hf.ssrc, hf.head, hf.lastOutgoing, hf.restartPending,
      hdropped, hinjected, hduplicate, hrestarts⟩
  · have hu : Abreast { short.facing p with unwrapper := unwrapper }
        { long.facing p with unwrapper := unwrapper } :=
      ⟨hf.offsets, rfl, hf.ssrc, hf.head, hf.lastOutgoing, hf.restartPending, hf.stats⟩
    simp only [hext] at hcs hcl ⊢
    exact hu.place hcs hcl

theorem reserve (h : Abreast short long) (hs : short.nextOutgoing.value = .ok short.upcoming)
    (hl : long.nextOutgoing.value = .ok long.upcoming) {count : BitVec 16}
    (hok : ∀ cause, (short.reserve count).value.2 ≠ .error cause) :
    (short.reserve count).value.2 = (long.reserve count).value.2 ∧
      Abreast (short.reserve count).value.1 (long.reserve count).value.1 := by
  rw [value_reserve, hs] at hok ⊢
  rw [value_reserve, hl, ← h.upcoming hs hl]
  cases hup : short.upcoming with
  | none => exact ⟨rfl, h⟩
  | some next =>
    simp only [hup] at hok ⊢
    by_cases hc : count = 0
    · simp only [if_pos hc]
      exact ⟨trivial, h⟩
    simp only [if_neg hc] at hok ⊢
    rw [← h.head]
    obtain ⟨hdropped, hinjected, hduplicate, hrestarts⟩ := h.stats
    cases hhead : short.head with
    | none =>
      exact ⟨rfl, h.offsets.lower _, h.unwrapper, h.ssrc, rfl, rfl, h.restartPending, hdropped,
        congrArg (· + _) hinjected, hduplicate, hrestarts⟩
    | some head =>
      simp only [hhead] at hok ⊢
      cases hlower : (short.offsets.lowerFrom (head + 1) (count.setWidth 64)).value with
      | error cause =>
        rw [hlower] at hok
        exact absurd rfl (hok cause)
      | ok offsets =>
        obtain ⟨offsets', hlower', hoffsets⟩ := h.offsets.lowerFrom hlower
        rw [hlower']
        exact ⟨rfl, hoffsets, h.unwrapper, h.ssrc, rfl, rfl, h.restartPending, hdropped,
          congrArg (· + _) hinjected, hduplicate, hrestarts⟩

end Abreast

/-- A late packet is too old for one numbering, where another one places it or finds it left out. -/
def Outdated (x y : Exchange) : Prop :=
  ∃ k newest, y.extended = some k ∧ x.rebases = false ∧ x.before.head = some newest ∧ k < newest ∧
    x.reply = .forwarded (.error (.tooOld k)) ∧
    (y.reply = .forwarded (.error (.excluded k)) ∨ ∃ answer, y.reply = .forwarded (.ok answer))

/-- The same request to two numberings, of which the first one remembers less. -/
structure Alike (x y : Exchange) : Prop where
  request : x.request = y.request
  answered : x.reply = y.reply ∧ x.placed = y.placed ∨ Outdated x y
  tooOld : ∀ k, y.reply = .forwarded (.error (.tooOld k)) →
    x.reply = .forwarded (.error (.tooOld k))
  reserved : x.reserved = y.reserved
  after : Abreast x.after y.after

theorem Shortened.alike
    (h : Shortened (Exchange.extended ⟨long, .forward p⟩) (short.facing p).head
      (short.receive p).value.2 (long.receive p).value.2)
    (hafter : Abreast (short.receive p).value.1 (long.receive p).value.1) :
    Alike ⟨short, .forward p⟩ ⟨long, .forward p⟩ := by
  have hs := Exchange.reply_forward short p
  have hl := Exchange.reply_forward long p
  generalize hanswer : (short.receive p).value.2 = answer at h hs
  generalize hanswer' : (long.receive p).value.2 = answer' at h hl
  cases h with
  | same =>
    have hreply : Exchange.reply ⟨short, .forward p⟩ = Exchange.reply ⟨long, .forward p⟩ :=
      hs.trans hl.symm
    have hplaced : Exchange.placed ⟨short, .forward p⟩ = Exchange.placed ⟨long, .forward p⟩ :=
      congrArg Except.toOption (hanswer.trans hanswer'.symm)
    exact ⟨rfl, Or.inl ⟨hreply, hplaced⟩, fun k hk => hreply.trans hk, rfl, hafter⟩
  | forgotten k newest _ hk hnewest late known =>
    have hdue : short.due p = false := by
      cases hdue : short.due p with
      | false => rfl
      | true =>
        rw [facing_of_due hdue] at hnewest
        cases hnewest
    rw [facing_of_not_due hdue] at hnewest
    refine ⟨rfl, Or.inr ⟨k, newest, hk, hdue, hnewest, late, hs, ?_⟩, fun k' hk' => ?_, rfl, hafter⟩
    · rcases known with rfl | ⟨spot, rfl⟩
      · exact Or.inl hl
      · exact Or.inr ⟨_, hl⟩
    · rw [hl] at hk'
      rcases known with rfl | ⟨spot, rfl⟩ <;> cases hk'

theorem Abreast.alike {few many t : ℕ} {ls ll : Line} {gs gl : Ledger} (h : Abreast short long)
    (hs : Follows few t short ls gs) (hl : Follows many t long ll gl) (ht : t < 2 ^ 47)
    (request : Request) : Alike ⟨short, request⟩ ⟨long, request⟩ := by
  have hns := hs.nextOutgoing ht
  have hnl := hl.nextOutgoing ht
  cases request with
  | forward p =>
    obtain ⟨hanswer, hafter⟩ :=
      h.receive hns hnl p (hs.consistent_forward ht p) (hl.consistent_forward ht p)
    exact hanswer.alike hafter
  | inject count =>
    have hok : ∀ cause, (short.reserve count).value.2 ≠ .error cause := by
      intro cause hres
      have hcons := hs.consistent ht (.inject count)
      rw [Exchange.reply_inject, hres] at hcons
      exact hcons cause rfl
    obtain ⟨hreserve, hafter⟩ := h.reserve hns hnl hok
    have hreply : Exchange.reply ⟨short, .inject count⟩ = Exchange.reply ⟨long, .inject count⟩ := by
      rw [Exchange.reply_inject, Exchange.reply_inject, hreserve]
    have hreserved :
        Exchange.reserved ⟨short, .inject count⟩ = Exchange.reserved ⟨long, .inject count⟩ := by
      rw [Exchange.reserved_inject, Exchange.reserved_inject, hreserve]
    exact ⟨rfl, Or.inl ⟨hreply, rfl⟩, fun k hk => hreply.trans hk, hreserved, hafter⟩
  | restart =>
    refine ⟨rfl, Or.inl ⟨rfl, rfl⟩, fun k hk => ?_, rfl, ?_⟩
    · cases hk
    · exact ⟨h.offsets, h.unwrapper, h.ssrc, h.head, h.lastOutgoing, rfl, h.stats⟩

theorem Abreast.exchanges {few many t : ℕ} {ls ll : Line} {gs gl : Ledger} (h : Abreast short long)
    (hs : Follows few t short ls gs) (hl : Follows many t long ll gl) (requests : List Request)
    (ht : t + requests.length ≤ 2 ^ 47) :
    List.Forall₂ Alike (short.exchanges requests) (long.exchanges requests) := by
  induction requests generalizing short long t ls ll gs gl with
  | nil => exact .nil
  | cons request rest ih =>
    rw [List.length_cons] at ht
    -- each run keeps its own books, which rule out that either reply is inconsistent
    have halike := h.alike hs hl (by omega) request
    obtain ⟨ls', hs'⟩ := (hs.booked (by omega) request).follows
    obtain ⟨ll', hl'⟩ := (hl.booked (by omega) request).follows
    exact .cons halike (ih halike.after hs' hl' (by omega))

/-- Of two numberings with the same requests, the one that remembers less gives the same replies,
but for late packets that are too old for it. Both always reply if the ranges of the longer history
can be counted. -/
theorem exchanges_of_history_le {few many : ℕ} (hmany : many + 1 < UInt64.size)
    (hle : max few 1 ≤ max many 1) (requests : List Request) (hlen : requests.length < 2 ^ 47) :
    ((new few).serveAll requests).overflow = false ∧
      ((new many).serveAll requests).overflow = false ∧
      List.Forall₂ Alike ((new few).exchanges requests) ((new many).exchanges requests) := by
  obtain ⟨ls, hs⟩ := follows_new few
  obtain ⟨ll, hl⟩ := follows_new many
  have hfew : few + 1 < UInt64.size := History.lt_size_of_max_le hle hmany
  exact ⟨overflow_serveAll (History.new_capacity_lt hfew) _,
    overflow_serveAll (History.new_capacity_lt hmany) _,
    (Abreast.new hle).exchanges hs hl requests (by omega)⟩

/-- Two numbers are left out, and two packets come later than a single closed range reaches back. -/
private def gappy : List Request :=
  [.forward ⟨7, 10, 0, [1], 0⟩, .forward ⟨7, 11, 0, [], 0⟩, .forward ⟨7, 12, 0, [1], 0⟩,
    .forward ⟨7, 13, 0, [], 0⟩, .forward ⟨7, 9, 0, [1], 0⟩, .forward ⟨7, 11, 0, [1], 0⟩]

theorem exchanges_of_history_le_gappy :
    max 0 1 ≤ max 4 1 ∧ gappy.length < 2 ^ 47 ∧ ((new 0).after gappy).stats.rejected = 2 ∧
      ((new 4).after gappy).stats.rejected = 1 ∧
      List.Forall₂ Alike ((new 0).exchanges gappy) ((new 4).exchanges gappy) := by
  have hle : max 0 1 ≤ max 4 1 := by decide
  have hlen : gappy.length < 2 ^ 47 := by decide
  obtain ⟨-, -, halike⟩ := exchanges_of_history_le (by decide) hle gappy hlen
  exact ⟨hle, hlen, by decide, by decide, halike⟩

/-- The largest history leaves no reply where a short one replies. -/
theorem exchanges_of_history_le_overflow :
    max 4 1 ≤ max (UInt64.size - 1) 1 ∧
      ((new 4).serveAll
        [.forward ⟨7, 10, 0, [1], 0⟩, .inject 1, .forward ⟨7, 11, 0, [1], 0⟩]).outcome.isSome ∧
      ((new (UInt64.size - 1)).serveAll
        [.forward ⟨7, 10, 0, [1], 0⟩, .inject 1, .forward ⟨7, 11, 0, [1], 0⟩]).outcome.isNone := by
  decide

end Numbering

end Renumber
