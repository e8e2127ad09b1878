import Renumber.History.Request
import Renumber.Proofs.Raise
import Renumber.Proofs.Retention

/-! Values of a history never decide what it does. Two histories whose values differ by a constant
accept the same edits, forget the same ranges and report the same events, and their values go on to
differ by that constant until a reset sets them anew. -/
namespace Renumber.History

variable {k v : ℕ}

namespace Request

def isReset : Request k v → Bool
  | .edit e => e.isReset
  | .lookup _ => false

/-- The change that is asked for, unless it is a look-up. -/
def edit? : Request k v → Option (Edit k v)
  | .edit e => some e
  | .lookup _ => none

end Request

namespace Reply

/-- Whether the request succeeds, and why not. -/
def outcome : Reply v → Except HistoryError Unit
  | .edited result => result
  | .found result => result.map fun _ => ()

/-- The reply with its value moved on. -/
def raise (c : BitVec v) : Reply v → Reply v
  | .edited result => .edited result
  | .found result => .found (result.map (· + c))

theorem outcome_raise (c : BitVec v) (reply : Reply v) :
    (reply.raise c).outcome = reply.outcome := by
  rcases reply with result | _ | value <;> rfl

end Reply

/-- Where the ranges start, and where the closed ones end. -/
def ends (h : History k v) : List (BitVec k × BitVec k) × BitVec k :=
  (h.closed.map fun s => (s.first, s.last), h.start)

/-- What is left of a raise after the requests: a reset ends it. -/
def remaining (c : BitVec v) (requests : List (Request k v)) : BitVec v :=
  if requests.any Request.isReset then 0 else c

variable {h : History k v} {c : BitVec v}

theorem raise_zero (h : History k v) : h.raise 0 = h := by
  have hspan : (Span.raise 0 : Span k v → Span k v) = id := by
    funext s
    simp [Span.raise]
  rw [raise, hspan, List.map_id]
  exact congrArg (fun value => { h with value := value }) (BitVec.add_zero h.value)

theorem ends_raise (h : History k v) (c : BitVec v) : (h.raise c).ends = h.ends := by
  simp only [ends, raise, List.map_map]
  rfl

theorem oldestStart_raise (h : History k v) (c : BitVec v) :
    (h.raise c).oldestStart = h.oldestStart := by
  simp only [oldestStart, raise, List.getLast?_map, Option.map_map]
  rfl

theorem prune_raise (h : History k v) (c : BitVec v) : (h.raise c).prune = raise c <$> h.prune := by
  have hlength : (h.raise c).closed.length = h.closed.length := List.length_map ..
  have hkept : (h.raise c).prune.value = raise c h.prune.value := by
    rw [value_prune, value_prune]
    simp only [raise, List.map_take]
  have holdest : (h.raise c).prune.value.oldestStart = h.prune.value.oldestStart := by
    rw [hkept, oldestStart_raise]
  apply Traced.ext
  · exact hkept
  · rw [value_prune, value_prune] at holdest
    simp only [prune, Traced.events_bind, Traced.events_reportIf, Traced.events_pure,
      Traced.events_map, hlength, holdest]
    rfl
  · rw [Traced.overflow_map, overflow_prune, overflow_prune]
    rfl

theorem settle_raise (h : History k v) (c : BitVec v) (stop next : BitVec k) (value : BitVec v) :
    (h.raise c).settle stop next (value + c) = raise c <$> h.settle stop next value := by
  have hstart : (h.raise c).start = h.start := rfl
  unfold settle
  rw [hstart]
  split
  · rfl
  · rw [split, split, ← prune_raise]
    rfl

theorem apply_raise (h : History k v) (c : BitVec v) {edit : Edit k v}
    (hreset : edit.isReset = false) :
    (h.raise c).apply edit = Prod.map (raise c) id <$> h.apply edit := by
  have hstart : (h.raise c).start = h.start := rfl
  have hvalue : (h.raise c).value = h.value + c := rfl
  cases edit with
  | exclude first stop =>
    have hsum : (h.raise c).value + (Serial.distance stop first).setWidth v =
        h.value + (Serial.distance stop first).setWidth v + c := by
      rw [hvalue]
      ring
    rw [apply_exclude, apply_exclude, hstart, hsum, settle_raise]
    split
    · rfl
    · rw [Functor.map_map, Functor.map_map]
      rfl
  | lower delta =>
    have hdifference : (h.raise c).value - delta = h.value - delta + c := by
      rw [hvalue]
      ring
    simp only [apply, lower, hdifference]
    rfl
  | lowerFrom key delta =>
    have hdifference : (h.raise c).value - delta = h.value - delta + c := by
      rw [hvalue]
      ring
    rw [apply_lowerFrom, apply_lowerFrom, hstart, hdifference, settle_raise]
    split
    · rfl
    · rw [Functor.map_map, Functor.map_map]
      rfl
  | reset value => cases hreset

theorem lookup_raise (h : History k v) (c : BitVec v) (key : BitVec k) :
    (h.raise c).lookup key = Except.map (· + c) <$> h.lookup key := by
  have hsize : (h.raise c).size = h.size := congrArg (· + 1) (List.length_map ..)
  apply Traced.ext
  · rw [value_lookup, get_raise, Traced.value_map, value_lookup]
  · simp only [lookup, Traced.events_bind, Traced.events_reportIf, Traced.events_pure,
      Traced.events_map, get_raise, oldestStart_raise, hsize]
    rcases h.get key with (_ | _ | _ | _) | value <;> rfl
  · rw [Traced.overflow_map, overflow_lookup, overflow_lookup]

/-- A request is served alike, but for the values. -/
theorem serve_raise (h : History k v) (c : BitVec v) (request : Request k v) :
    (h.raise c).serve request =
      Prod.map (raise (remaining c [request])) (Reply.raise c) <$> h.serve request := by
  cases hreset : request.isReset with
  | false =>
    have hremaining : remaining c [request] = c := by simp [remaining, hreset]
    rw [hremaining]
    cases request with
    | edit edit =>
      have hedit : edit.isReset = false := hreset
      rw [serve, serve, apply_raise h c hedit, Functor.map_map, Functor.map_map]
      rfl
    | lookup key =>
      rw [serve, serve, lookup_raise, Functor.map_map, Functor.map_map]
      rfl
  | true =>
    have hremaining : remaining c [request] = 0 := by simp [remaining, hreset]
    rw [hremaining]
    rcases request with (_ | _ | _ | value) | key
    · cases hreset
    · cases hreset
    · cases hreset
    · simp only [serve, apply, map_pure, Prod.map, raise_zero]
      rfl
    · cases hreset

/-! ### Runs -/

/-- The history after the requests. -/
def served (h : History k v) (requests : List (Request k v)) : History k v :=
  (h.serveAll requests).value.1

theorem served_cons (h : History k v) (request : Request k v) (rest : List (Request k v)) :
    h.served (request :: rest) = (h.serve request).value.1.served rest := rfl

theorem remaining_cons (c : BitVec v) (request : Request k v) (rest : List (Request k v)) :
    remaining c (request :: rest) = remaining (remaining c [request]) rest := by
  unfold remaining
  rw [List.any_cons, List.any_cons, List.any_nil, Bool.or_false]
  cases request.isReset <;> simp

theorem served_raise (h : History k v) (c : BitVec v) (requests : List (Request k v)) :
    (h.raise c).served requests = (h.served requests).raise (remaining c requests) := by
  induction requests generalizing h c with
  | nil => rfl
  | cons request rest ih =>
    rw [served_cons, served_cons, serve_raise, remaining_cons c request rest]
    exact ih _ _

/-- Runs report the same events and succeed and fail alike. -/
theorem serveAll_raise (h : History k v) (c : BitVec v) (requests : List (Request k v)) :
    ((h.raise c).serveAll requests).events = (h.serveAll requests).events ∧
      ((h.raise c).serveAll requests).value.2.map Reply.outcome =
        (h.serveAll requests).value.2.map Reply.outcome := by
  induction requests generalizing h c with
  | nil => exact ⟨rfl, rfl⟩
  | cons request rest ih =>
    obtain ⟨hevents, houtcomes⟩ := ih (h.serve request).value.1 (remaining c [request])
    simp only [serveAll, serve_raise, Traced.events_bind, Traced.value_bind, Traced.events_pure,
      Traced.value_pure, Traced.events_map, Traced.value_map, Prod.map_fst, Prod.map_snd,
      List.map_cons, Reply.outcome_raise, hevents, houtcomes, and_self]

/-- Look-ups leave the history alone. -/
theorem served_eq_applyAll (h : History k v) (requests : List (Request k v)) :
    h.served requests = (h.applyAll (requests.filterMap Request.edit?)).value.1 := by
  induction requests generalizing h with
  | nil => rfl
  | cons request rest ih =>
    rw [served_cons, ih]
    cases request <;> rfl

/-- After any requests, a reset makes a history that does what a new one does with the given value
added to all values. Whatever is asked of both, they report the same events, succeed and fail alike,
and have their ranges from the same keys to the same keys. Until the next reset the values, those
that are looked up included, are the ones of the new history plus the given one; from then on the
two histories are equal. -/
theorem serveAll_reset (capacity : ℕ) (before : List (Request k v)) (value : BitVec v)
    (requests : List (Request k v)) :
    let m := (new capacity : History k v).served before
    let shifted := m.reset value
    let fresh : History k v := new m.capacity
    (shifted.serveAll requests).events = (fresh.serveAll requests).events ∧
      (shifted.serveAll requests).value.2.map Reply.outcome =
        (fresh.serveAll requests).value.2.map Reply.outcome ∧
      ∀ earlier, earlier <+: requests →
        (shifted.served earlier).ends = (fresh.served earlier).ends ∧
          (earlier.any Request.isReset = false →
            shifted.served earlier = (fresh.served earlier).raise value ∧
              ∀ next, ((shifted.served earlier).serve next).value.2 =
                ((fresh.served earlier).serve next).value.2.raise value) ∧
          (earlier.any Request.isReset = true → shifted.served earlier = fresh.served earlier) := by
  intro m shifted fresh
  have hroom : m.capacity = max capacity 1 := by
    have hm : m = after capacity (before.filterMap Request.edit?) := served_eq_applyAll _ before
    rw [hm]
    exact (keeps_after capacity _).room
  have hshifted : shifted = fresh.raise value := by
    have hcapacity : max m.capacity 1 = m.capacity := by omega
    simp only [shifted, fresh, reset, new, raise, hcapacity, List.map_nil]
    exact congrArg (fun x => { m with closed := [], start := 0, value := x })
      (BitVec.zero_add value).symm
  rw [hshifted]
  obtain ⟨hevents, houtcomes⟩ := serveAll_raise fresh value requests
  refine ⟨hevents, houtcomes, fun earlier _ => ⟨?_, fun hkept => ?_, fun hreset => ?_⟩⟩
  · rw [served_raise, ends_raise]
  · have hremaining : remaining value earlier = value := by simp [remaining, hkept]
    rw [served_raise, hremaining]
    refine ⟨rfl, fun next => ?_⟩
    rw [serve_raise]
    rfl
  · have hremaining : remaining value earlier = 0 := by simp [remaining, hreset]
    rw [served_raise, hremaining, raise_zero]

/-- A reset to 1000 after two exclusions, and another one to 7 at the end of the run. -/
private def rebased : List (Request 16 32) :=
  [.edit (.exclude 10 20), .edit (.exclude 5 6), .edit (.lowerFrom 40 3), .lookup 15,
    .edit (.reset 7)]

theorem serveAll_reset_rebased :
    let m := (new 1 : History 16 32).served [.edit (.exclude 3 8), .edit (.exclude 900 40000)]
    m.reset 1000 = ⟨1, [], 0, 1000⟩ ∧
      (((m.reset 1000).serveAll rebased).value.2.map Reply.outcome =
        [.ok (), .error .reversed, .ok (), .error .tooOld, .ok ()]) ∧
      ((m.reset 1000).served (rebased.take 4)).value = 1007 ∧
      (((m.reset 1000).served (rebased.take 4)).serve (.lookup 50)).value.2 = .found (.ok 1007) ∧
      (m.reset 1000).served rebased = (new 1 : History 16 32).served rebased := by
  obtain ⟨-, houtcomes, hparts⟩ := serveAll_reset 1
    [.edit (.exclude 3 8), .edit (.exclude 900 40000)] (1000 : BitVec 32) rebased
  obtain ⟨-, hshifted, -⟩ := hparts (rebased.take 4) (by decide)
  obtain ⟨hstate, hreply⟩ := hshifted (by decide)
  obtain ⟨-, -, hequal⟩ := hparts rebased (by decide)
  refine ⟨by decide, houtcomes.trans ?_, ?_, ?_, hequal (by decide)⟩
  · rfl
  · rw [hstate]
    decide
  · rw [hreply]
    rfl

end Renumber.History
