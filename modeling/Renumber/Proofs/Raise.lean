import Renumber.Proofs.Outcome
import Renumber.Proofs.Unrolling

/-! Numberings whose offsets differ by a constant give the same answers but for the outgoing
numbers, which differ by that constant. -/
namespace Renumber

variable {k v : ℕ}

def Span.raise (c : BitVec v) (s : Span k v) : Span k v := { s with value := s.value + c }

namespace History

/-- Raises all values alike. -/
def raise (c : BitVec v) (h : History k v) : History k v :=
  { h with closed := h.closed.map (Span.raise c), value := h.value + c }

theorem getBefore_raise (c : BitVec v) (key next : BitVec k) (closed : List (Span k v)) :
    getBefore key next (closed.map (Span.raise c)) =
      (getBefore key next closed).map (· + c) := by
  induction closed generalizing next with
  | nil => rfl
  | cons s older ih =>
    simp only [List.map_cons, getBefore, Span.raise, ih]
    split
    · rfl
    split <;> rfl

theorem get_raise (h : History k v) (c : BitVec v) (key : BitVec k) :
    (h.raise c).get key = (h.get key).map (· + c) := by
  unfold get raise
  rw [getBefore_raise]
  split <;> rfl

theorem reset_raise (h : History k v) (c value : BitVec v) :
    (h.raise c).reset (value + c) = (h.reset value).raise c := rfl

theorem advance_raise (h : History k v) (c : BitVec v) (stop next : BitVec k) (value : BitVec v) :
    (h.raise c).advance stop next (value + c) = (h.advance stop next value).raise c := by
  have hstart : (h.raise c).start = h.start := rfl
  by_cases he : stop = h.start
  · rw [advance, advance, hstart, if_pos he, if_pos he]
    rfl
  · rw [advance, advance, hstart, if_neg he, if_neg he]
    simp only [raise, List.map_take, List.map_cons, Span.raise]

theorem exclude_raise (h : History k v) (c : BitVec v) (first stop : BitVec k) :
    ((h.raise c).exclude first stop).value = (h.exclude first stop).value.map (raise c) := by
  have hvalue : (h.raise c).value + (Serial.distance stop first).setWidth v =
      h.value + (Serial.distance stop first).setWidth v + c := by
    unfold raise
    grind
  rw [value_exclude, value_exclude, hvalue, advance_raise, raise]
  split <;> rfl

theorem lowerFrom_raise (h : History k v) (c delta : BitVec v) (key : BitVec k) :
    ((h.raise c).lowerFrom key delta).value = (h.lowerFrom key delta).value.map (raise c) := by
  have hvalue : (h.raise c).value - delta = h.value - delta + c := by
    unfold raise
    grind
  rw [value_lowerFrom, value_lowerFrom, hvalue, advance_raise, raise]
  split <;> rfl

end History

def Placement.raise (c : BitVec 64) (spot : Placement) : Placement :=
  { spot with outgoing := spot.outgoing + c }

/-- The reply with all outgoing numbers moved on. -/
def Numbering.Reply.raise (c : BitVec 16) : Numbering.Reply → Numbering.Reply
  | .forwarded answer =>
    .forwarded (answer.map fun p => p.withSequenceNumber (p.sequenceNumber + c))
  | .injected answer => .injected (answer.map fun numbers => numbers.map (· + c))
  | .restarted => .restarted

namespace Numbering

variable {c : BitVec 64} {m n : Numbering}

/-- The numberings agree, except that the offsets of `n` are higher by `c`, and thus its outgoing
numbers lower. -/
structure Lags (c : BitVec 64) (m n : Numbering) : Prop where
  offsets : n.offsets = m.offsets.raise c
  unwrapper : n.unwrapper = m.unwrapper
  ssrc : n.ssrc = m.ssrc
  head : n.head = m.head
  restartPending : n.restartPending = m.restartPending

private theorem sub_add_raise (x offset : BitVec 64) : x - (offset + c) + c = x - offset := by
  grind

private theorem sub_sub_raise (x next offset : BitVec 64) :
    x - (next - (offset + c)) = x - (next - offset) + c := by
  grind

private theorem add_sub_raise (next offset i : BitVec 64) :
    next - (offset + c) + i + c = next - offset + i := by
  grind

theorem Lags.get (h : Lags c m n) (e : BitVec 64) :
    n.offsets.get e = (m.offsets.get e).map (· + c) := by
  rw [h.offsets, History.get_raise]

theorem Lags.nextOutgoing (h : Lags c m n) {head : BitVec 64} (hhead : m.head = some head) :
    m.nextOutgoing.value = (m.offsets.get (head + 1)).map (fun o => some (head + 1 - o)) ∧
      n.nextOutgoing.value =
        (m.offsets.get (head + 1)).map (fun o => some (head + 1 - (o + c))) := by
  rw [value_nextOutgoing, value_nextOutgoing, h.head, hhead]
  refine ⟨rfl, ?_⟩
  simp only [h.get]
  cases m.offsets.get (head + 1) <;> rfl

theorem Lags.due (h : Lags c m n) (p : Packet) : n.due p = m.due p := by
  rw [Numbering.due, Numbering.due, h.ssrc, h.restartPending]

theorem Lags.placeLate (h : Lags c m n) (ssrc : BitVec 32) (s : BitVec 16) (e : BitVec 64) :
    Lags c (m.placeLate ssrc s e).value.1 (n.placeLate ssrc s e).value.1 ∧
      (m.placeLate ssrc s e).value.2 =
        (n.placeLate ssrc s e).value.2.map (Placement.raise c) := by
  rw [value_placeLate, value_placeLate, h.get]
  rcases m.offsets.get e with error | offset
  · cases error <;> exact ⟨⟨h.offsets, h.unwrapper, h.ssrc, h.head, h.restartPending⟩, rfl⟩
  · refine ⟨⟨h.offsets, h.unwrapper, h.ssrc, h.head, h.restartPending⟩, ?_⟩
    simp only [Except.map, Placement.raise, sub_add_raise]

theorem Lags.dropPadding (h : Lags c m n) (e : BitVec 64) :
    Lags c (m.dropPadding e).value.1 (n.dropPadding e).value.1 ∧
      (m.dropPadding e).value.2 = (n.dropPadding e).value.2.map (Placement.raise c) := by
  have hexclude : (n.offsets.exclude e (e + 1)).value =
      (m.offsets.exclude e (e + 1)).value.map (History.raise c) := by
    rw [h.offsets, History.exclude_raise]
  rw [value_dropPadding, value_dropPadding, hexclude]
  rcases (m.offsets.exclude e (e + 1)).value with error | offsets
  · exact ⟨h, rfl⟩
  · exact ⟨⟨rfl, h.unwrapper, h.ssrc, h.head, h.restartPending⟩, rfl⟩

theorem Lags.placeHead (h : Lags c m n) (e : BitVec 64) :
    Lags c (m.placeHead e).value.1 (n.placeHead e).value.1 ∧
      (m.placeHead e).value.2 = (n.placeHead e).value.2.map (Placement.raise c) := by
  rw [value_placeHead, value_placeHead, h.get]
  rcases m.offsets.get e with error | offset
  · exact ⟨⟨h.offsets, h.unwrapper, h.ssrc, h.head, h.restartPending⟩, rfl⟩
  · refine ⟨⟨h.offsets, h.unwrapper, h.ssrc, h.head, h.restartPending⟩, ?_⟩
    simp only [Except.map, Placement.raise, sub_add_raise]

theorem Lags.place (h : Lags c m n) (p : Packet) (e : BitVec 64) :
    Lags c (m.place p e).value.1 (n.place p e).value.1 ∧
      (m.place p e).value.2 = (n.place p e).value.2.map (Placement.raise c) := by
  have hlead : Lags c { m with head := some e } { n with head := some e } :=
    ⟨h.offsets, h.unwrapper, h.ssrc, rfl, h.restartPending⟩
  rw [value_place, value_place, h.head]
  split
  · exact ⟨⟨h.offsets, h.unwrapper, h.ssrc, rfl, h.restartPending⟩, rfl⟩
  split
  · exact h.placeLate p.ssrc p.sequenceNumber e
  split
  · exact hlead.dropPadding e
  · exact hlead.placeHead e

theorem place_head_ne_none (n : Numbering) (p : Packet) (e : BitVec 64) :
    (n.place p e).value.1.head ≠ none := by
  rw [value_place]
  split
  · next hhead => simp [hhead]
  split
  · next hhead =>
    have hsome : n.head ≠ none := fun hnone => by simp [hnone] at hhead
    rw [value_placeLate]
    split <;> exact hsome
  split
  · rw [value_dropPadding]
    split <;> exact Option.some_ne_none e
  · rw [value_placeHead]
    split <;> exact Option.some_ne_none e

theorem Lags.receive (h : Lags c m n) (hhead : m.head ≠ none) (p : Packet) :
    Lags c (m.receive p).value.1 (n.receive p).value.1 ∧
      (m.receive p).value.1.head ≠ none ∧
      (m.receive p).value.2 = (n.receive p).value.2.map (Placement.raise c) := by
  cases hdue : m.due p with
  | false =>
    rw [value_receive_of_not_due hdue, value_receive_of_not_due ((h.due p).trans hdue), h.unwrapper]
    rcases m.unwrapper.extend p.sequenceNumber with ⟨_ | e, unwrapper⟩
    · exact ⟨⟨h.offsets, rfl, rfl, h.head, h.restartPending⟩, hhead, rfl⟩
    · have hstate : Lags c { m with ssrc := some p.ssrc, unwrapper := unwrapper }
          { n with ssrc := some p.ssrc, unwrapper := unwrapper } :=
        ⟨h.offsets, rfl, rfl, h.head, h.restartPending⟩
      obtain ⟨hlags, hres⟩ := hstate.place p e
      exact ⟨hlags, place_head_ne_none _ p e, hres⟩
  | true =>
    obtain ⟨head, hm⟩ := Option.ne_none_iff_exists'.mp hhead
    obtain ⟨hnext, hnext'⟩ := h.nextOutgoing hm
    rw [value_receive_of_due hdue, value_receive_of_due ((h.due p).trans hdue), hnext, hnext']
    rcases m.offsets.get (head + 1) with error | offset
    · exact ⟨⟨h.offsets, rfl, rfl, h.head, rfl⟩, hhead, rfl⟩
    · have hreset : n.offsets.reset (p.sequenceNumber.setWidth 64 - (head + 1 - (offset + c))) =
          (m.offsets.reset (p.sequenceNumber.setWidth 64 - (head + 1 - offset))).raise c := by
        rw [h.offsets, sub_sub_raise, History.reset_raise]
      have hstate : Lags c { m with
            offsets := m.offsets.reset (p.sequenceNumber.setWidth 64 - (head + 1 - offset))
            unwrapper := ⟨some (p.sequenceNumber.setWidth 64)⟩
            ssrc := some p.ssrc
            head := none
            restartPending := false
            stats := { m.stats with restarts := m.stats.restarts + 1 } } { n with
            offsets := n.offsets.reset (p.sequenceNumber.setWidth 64 - (head + 1 - (offset + c)))
            unwrapper := ⟨some (p.sequenceNumber.setWidth 64)⟩
            ssrc := some p.ssrc
            head := none
            restartPending := false
            stats := { n.stats with restarts := n.stats.restarts + 1 } } :=
        ⟨hreset, rfl, rfl, rfl, rfl⟩
      obtain ⟨hlags, hres⟩ := hstate.place p (p.sequenceNumber.setWidth 64)
      exact ⟨hlags, place_head_ne_none _ p _, hres⟩

theorem Lags.reserve (h : Lags c m n) (hhead : m.head ≠ none) (count : BitVec 16) :
    Lags c (m.reserve count).value.1 (n.reserve count).value.1 ∧
      (m.reserve count).value.1.head ≠ none ∧
      (m.reserve count).value.2 = (n.reserve count).value.2.map fun ns => ns.map (· + c) := by
  obtain ⟨head, hm⟩ := Option.ne_none_iff_exists'.mp hhead
  obtain ⟨hnext, hnext'⟩ := h.nextOutgoing hm
  have hlower : (n.offsets.lowerFrom (head + 1) (count.setWidth 64)).value =
      (m.offsets.lowerFrom (head + 1) (count.setWidth 64)).value.map (History.raise c) := by
    rw [h.offsets, History.lowerFrom_raise]
  rw [value_reserve, value_reserve, hnext, hnext']
  rcases m.offsets.get (head + 1) with error | offset
  · exact ⟨h, hhead, rfl⟩
  by_cases hc : count = 0
  · simp only [Except.map, hc, if_true]
    exact ⟨h, hhead, rfl⟩
  simp only [Except.map, hc, if_false, h.head, hm, hlower]
  rcases (m.offsets.lowerFrom (head + 1) (count.setWidth 64)).value with error | offsets
  · exact ⟨h, hhead, rfl⟩
  · refine ⟨⟨rfl, h.unwrapper, h.ssrc, rfl, h.restartPending⟩, Option.some_ne_none head, ?_⟩
    simp only [List.map_map, Except.ok.injEq]
    apply List.map_congr_left
    intro i _
    exact (add_sub_raise _ _ _).symm

theorem reply_raise {p : Packet}
    (hres : (m.receive p).value.2 = (n.receive p).value.2.map (Placement.raise c)) :
    (m.serve (.forward p)).value.2 = (n.serve (.forward p)).value.2.raise (c.setWidth 16) := by
  rw [reply_forward, reply_forward, hres]
  cases (n.receive p).value.2 with
  | error refusal => rfl
  | ok spot =>
    have hsum := BitVec.setWidth_add spot.outgoing c (show 16 ≤ 64 by decide)
    simp only [Except.map, Reply.raise, Placement.raise, hsum]
    rfl

theorem Lags.serve (h : Lags c m n) (hhead : m.head ≠ none) (request : Request) :
    Lags c (m.serve request).value.1 (n.serve request).value.1 ∧
      (m.serve request).value.1.head ≠ none ∧
      (m.serve request).value.2 = (n.serve request).value.2.raise (c.setWidth 16) := by
  cases request with
  | forward p =>
    obtain ⟨hlags, hhead', hres⟩ := h.receive hhead p
    exact ⟨hlags, hhead', reply_raise hres⟩
  | inject count =>
    obtain ⟨hlags, hhead', hres⟩ := h.reserve hhead count
    refine ⟨hlags, hhead', ?_⟩
    rw [reply_inject, reply_inject, hres]
    cases (n.reserve count).value.2 with
    | error refusal => rfl
    | ok numbers =>
      simp only [Except.map, Reply.raise, List.map_map]
      refine congrArg (Reply.injected ∘ Except.ok) (List.map_congr_left fun m _ => ?_)
      exact BitVec.setWidth_add m c (by decide)
  | restart => exact ⟨⟨h.offsets, h.unwrapper, h.ssrc, h.head, rfl⟩, hhead, rfl⟩

/-- Runs are answered alike but for the outgoing numbers. -/
theorem Lags.serveAll (h : Lags c m n) (hhead : m.head ≠ none) (requests : List Request) :
    (m.serveAll requests).value.2 =
      (n.serveAll requests).value.2.map (Reply.raise (c.setWidth 16)) := by
  induction requests generalizing m n with
  | nil => rfl
  | cons request rest ih =>
    obtain ⟨hlags, hhead', hreply⟩ := h.serve hhead request
    simp only [Numbering.serveAll, Traced.value_bind, Traced.value_pure, List.map_cons, hreply,
      ih hlags hhead']

end Numbering

end Renumber
