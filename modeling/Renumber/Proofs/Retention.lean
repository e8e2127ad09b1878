import Renumber.Proofs.Forgetting
import Renumber.Proofs.Journal

/-! What a history keeps of the ranges that it closes. Each edit forgets one range at most, so a
history that keeps fewer ranges has the newest ones of a history that keeps more. -/
namespace Renumber.History

variable {k v : ℕ}

/-- An edit and the history that it is asked of. -/
structure Attempt (k v : ℕ) where
  before : History k v
  edit : Edit k v
  deriving DecidableEq, Repr

namespace Attempt

def after (x : Attempt k v) : History k v := (x.before.apply x.edit).value.1

def result (x : Attempt k v) : Except HistoryError Unit := (x.before.apply x.edit).value.2

def events (x : Attempt k v) : List Event := (x.before.apply x.edit).events

/-- Where the edit closes the open range, if it is accepted and does so. -/
def splitAt (x : Attempt k v) : Option (BitVec k) :=
  match x.result with
  | .ok () => x.edit.cut x.before
  | .error _ => none

/-- The range that the edit closes becomes the newest one. A history that has no room for it forgets
its oldest one and reports where the next one starts. Nothing else is forgotten, but by a reset. -/
structure Prunes (room : ℕ) (x : Attempt k v) : Prop where
  bounded : x.before.closed.length ≤ room
  split : ∀ stop, x.splitAt = some stop → x.after.closed =
    (⟨x.before.start, stop - 1, x.before.value⟩ :: x.before.closed).take room
  stay : x.splitAt = none → x.after.closed = if x.edit.isReset then [] else x.before.closed
  events : x.events = if x.splitAt.isSome ∧ x.before.closed.length = room then
    [.pruned 1 x.after.oldestStart.toNat] else []

end Attempt

def attempts (h : History k v) : List (Edit k v) → List (Attempt k v)
  | [] => []
  | edit :: rest => ⟨h, edit⟩ :: attempts (h.apply edit).value.1 rest

/-- What was attempted after the last reset. -/
def sinceReset (xs : List (Attempt k v)) : List (Attempt k v) :=
  xs.foldl (fun later x => if x.edit.isReset then [] else later ++ [x]) []

/-- Closes the open range before `stop`, if anything lies there, and opens the next one. -/
def settle (h : History k v) (stop next : BitVec k) (value : BitVec v) : Traced (History k v) :=
  if stop = h.start then pure { h with start := next, value := value } else h.split stop next value

variable {h short long : History k v} {room : ℕ} {x : Attempt k v} {edit : Edit k v}

theorem value_settle (h : History k v) (stop next : BitVec k) (value : BitVec v) :
    (h.settle stop next value).value = h.advance stop next value := by
  unfold settle advance
  split <;> rfl

theorem apply_exclude (h : History k v) (first stop : BitVec k) :
    h.apply (.exclude first stop) =
      if Serial.distance stop first = 0 ∨ Serial.halfRange k ≤ Serial.distance stop first ∨
          Serial.precedes first h.start then
        pure (h, .error .reversed)
      else (·, .ok ()) <$>
        h.settle first stop (h.value + (Serial.distance stop first).setWidth v) := by
  rw [apply]
  unfold exclude settle
  by_cases hwidth : Serial.distance stop first = 0 ∨
      Serial.halfRange k ≤ Serial.distance stop first
  · have hrefused := hwidth.imp_right (Or.inl (b := Serial.precedes first h.start))
    simp only [Bool.or_eq_true, decide_eq_true_eq]
    rw [if_pos hwidth, if_pos hrefused]
    rfl
  · simp only [Bool.or_eq_true, decide_eq_true_eq]
    rw [if_neg hwidth]
    rw [not_or] at hwidth
    simp only [hwidth.1, hwidth.2, false_or]
    split
    · rfl
    split
    · rfl
    · rw [Functor.map_map]
      rfl

theorem apply_lowerFrom (h : History k v) (key : BitVec k) (delta : BitVec v) :
    h.apply (.lowerFrom key delta) =
      if Serial.precedes key h.start then pure (h, .error .reversed)
      else (·, .ok ()) <$> h.settle key key (h.value - delta) := by
  rw [apply]
  unfold lowerFrom settle
  split
  · rfl
  split
  · next heq =>
    subst heq
    rfl
  · rw [Functor.map_map]
    rfl

theorem apply_lower {key : BitVec k} (hstart : h.start = key) (delta : BitVec v) :
    h.apply (.lower delta) = (·, .ok ()) <$> h.settle key key (h.value - delta) := by
  subst hstart
  unfold settle
  rw [if_pos rfl]
  rfl

/-- A history that has no room for the range that was open forgets one, and reports it. -/
theorem events_settle (hbounded : h.closed.length ≤ h.capacity) (stop next : BitVec k)
    (value : BitVec v) : (h.settle stop next value).events =
      if stop ≠ h.start ∧ h.closed.length = h.capacity then
        [.pruned 1 (h.advance stop next value).oldestStart.toNat] else [] := by
  unfold settle advance
  by_cases hstop : stop = h.start
  · simp [hstop]
  have hdropped : h.closed.length + 1 - h.capacity =
      if h.closed.length = h.capacity then 1 else 0 := by
    split <;> omega
  rw [if_neg hstop, if_neg hstop, split, prune]
  simp only [Traced.events_bind, Traced.events_reportIf, Traced.events_pure, List.length_cons,
    hdropped]
  by_cases hfull : h.closed.length = h.capacity
  · simp [hfull, hstop]
  · simp [hfull]

theorem Forgets.apply (h : short.Forgets long) (edit : Edit k v) :
    (short.apply edit).value.2 = (long.apply edit).value.2 ∧
      (short.apply edit).value.1.Forgets (long.apply edit).value.1 := by
  cases edit with
  | exclude first stop =>
    rw [History.apply, History.apply, Traced.value_map, Traced.value_map, value_exclude,
      value_exclude, h.start, h.value]
    split
    · exact ⟨rfl, h⟩
    · exact ⟨rfl, h.advance ..⟩
  | lower delta => exact ⟨rfl, h.lower delta⟩
  | lowerFrom key delta =>
    rw [History.apply, History.apply, Traced.value_map, Traced.value_map, value_lowerFrom,
      value_lowerFrom, h.start, h.value]
    split
    · exact ⟨rfl, h⟩
    · exact ⟨rfl, h.advance ..⟩
  | reset value => exact ⟨rfl, h.reset value⟩

theorem Forgets.applyAll (h : short.Forgets long) (edits : List (Edit k v)) :
    (short.applyAll edits).value.2 = (long.applyAll edits).value.2 ∧
      (short.applyAll edits).value.1.Forgets (long.applyAll edits).value.1 := by
  induction edits generalizing short long with
  | nil => exact ⟨rfl, h⟩
  | cons edit rest ih =>
    obtain ⟨hresult, hnext⟩ := h.apply edit
    obtain ⟨hresults, hafter⟩ := ih hnext
    exact ⟨congrArg₂ List.cons hresult hresults, hafter⟩

theorem attempts_append (h : History k v) (earlier later : List (Edit k v)) :
    h.attempts (earlier ++ later) =
      h.attempts earlier ++ (h.applyAll earlier).value.1.attempts later := by
  induction earlier generalizing h with
  | nil => rfl
  | cons edit rest ih => exact congrArg (⟨h, edit⟩ :: ·) (ih (h.apply edit).value.1)

theorem events_applyAll (h : History k v) (edits : List (Edit k v)) :
    (h.applyAll edits).events = (h.attempts edits).flatMap Attempt.events := by
  induction edits generalizing h with
  | nil => rfl
  | cons edit rest ih =>
    have := ih (h.apply edit).value.1
    simp only [applyAll, Traced.events_bind, Traced.events_pure, List.append_nil, attempts,
      List.flatMap_cons, this]
    rfl

theorem sinceReset_concat (xs : List (Attempt k v)) (x : Attempt k v) :
    sinceReset (xs ++ [x]) = if x.edit.isReset then [] else sinceReset xs ++ [x] := by
  unfold sinceReset
  rw [List.foldl_append, List.foldl_cons, List.foldl_nil]

theorem prunes_of_unsplit (hbounded : h.closed.length ≤ room)
    (hsplit : (⟨h, edit⟩ : Attempt k v).splitAt = none)
    (hclosed : (h.apply edit).value.1.closed = if edit.isReset then [] else h.closed)
    (hevents : (h.apply edit).events = []) : Attempt.Prunes room ⟨h, edit⟩ := by
  refine ⟨hbounded, fun stop hstop => ?_, fun _ => hclosed, ?_⟩
  · rw [hsplit] at hstop
    cases hstop
  · rw [hsplit, if_neg (by simp)]
    exact hevents

theorem prunes_of_refused (hbounded : h.closed.length ≤ room) {e : HistoryError}
    (happly : h.apply edit = pure (h, .error e)) (hreset : edit.isReset = false) :
    Attempt.Prunes room ⟨h, edit⟩ := by
  apply prunes_of_unsplit hbounded
  · rw [Attempt.splitAt, Attempt.result, happly]
    rfl
  · rw [happly, hreset]
    rfl
  · rw [happly]
    rfl

theorem prunes_of_settle (hroom : h.capacity = room) (hbounded : h.closed.length ≤ room)
    {stop next : BitVec k} {value : BitVec v}
    (happly : h.apply edit = (·, .ok ()) <$> h.settle stop next value)
    (hcut : edit.cut h = if stop = h.start then none else some stop)
    (hreset : edit.isReset = false) : Attempt.Prunes room ⟨h, edit⟩ := by
  have hsplit : (⟨h, edit⟩ : Attempt k v).splitAt = edit.cut h := by
    rw [Attempt.splitAt, Attempt.result, happly]
    rfl
  have hafter : (h.apply edit).value.1 = h.advance stop next value := by
    rw [happly, Traced.value_map, value_settle]
  have hevents := events_settle (hroom ▸ hbounded) stop next value
  by_cases hstop : stop = h.start
  · rw [if_pos hstop] at hcut
    apply prunes_of_unsplit hbounded (hsplit.trans hcut)
    · rw [hafter, hreset, advance, if_pos hstop]
      rfl
    · rw [happly, Traced.events_map, hevents, if_neg fun h => h.1 hstop]
  · rw [if_neg hstop] at hcut
    rw [hcut] at hsplit
    refine ⟨hbounded, fun stop' hstop' => ?_, fun hnone => ?_, ?_⟩
    · obtain rfl := Option.some.inj (hsplit.symm.trans hstop')
      rw [Attempt.after, hafter, advance, if_neg hstop, hroom]
    · rw [hsplit] at hnone
      cases hnone
    · rw [Attempt.events, happly, Traced.events_map, hevents, hsplit, Attempt.after, hafter, hroom]
      simp [hstop]

/-- An edit forgets one range at most. -/
theorem prunes (hroom : h.capacity = room) (hbounded : h.closed.length ≤ room)
    (edit : Edit k v) : Attempt.Prunes room ⟨h, edit⟩ := by
  cases edit with
  | exclude first stop =>
    have hexclude := apply_exclude h first stop
    split at hexclude
    · exact prunes_of_refused hbounded hexclude rfl
    · exact prunes_of_settle hroom hbounded hexclude rfl rfl
  | lower delta =>
    have hcut : none = if h.start = h.start then none else some h.start := (if_pos rfl).symm
    exact prunes_of_settle hroom hbounded (apply_lower rfl delta) hcut rfl
  | lowerFrom key delta =>
    have hlower := apply_lowerFrom h key delta
    split at hlower
    · exact prunes_of_refused hbounded hlower rfl
    · exact prunes_of_settle hroom hbounded hlower rfl rfl
  | reset value => exact prunes_of_unsplit hbounded rfl rfl rfl

theorem length_closed_after_le (capacity : ℕ) (edits : List (Edit k v)) :
    (after capacity edits).closed.length ≤ max capacity 1 := by
  rw [(keeps_after capacity edits).closed]
  exact List.length_take_le ..

theorem prunes_after (capacity : ℕ) (edits : List (Edit k v)) (edit : Edit k v) :
    Attempt.Prunes (max capacity 1) ⟨after capacity edits, edit⟩ :=
  prunes (keeps_after capacity edits).room (length_closed_after_le capacity edits) edit

theorem attempts_concat (capacity : ℕ) (edits : List (Edit k v)) (edit : Edit k v) :
    (new capacity).attempts (edits ++ [edit]) =
      (new capacity).attempts edits ++ [⟨after capacity edits, edit⟩] :=
  (new capacity).attempts_append edits [edit]

theorem prunes_of_mem {capacity : ℕ} {edits : List (Edit k v)}
    (hx : x ∈ (new capacity).attempts edits) : x.Prunes (max capacity 1) := by
  induction edits using List.reverseRecOn with
  | nil => cases hx
  | append_singleton edits edit ih =>
    rw [attempts_concat, List.mem_append, List.mem_singleton] at hx
    rcases hx with hx | rfl
    · exact ih hx
    · exact prunes_after capacity edits edit

/-- An attempt leaves as many ranges as there were and as it closes, less those it reports as
forgotten. -/
theorem Attempt.Prunes.balance (hx : x.Prunes room) (hreset : x.edit.isReset = false) :
    x.events.length + x.after.closed.length =
      x.before.closed.length + if x.splitAt.isSome then 1 else 0 := by
  have hbounded := hx.bounded
  rw [hx.events]
  cases hsplit : x.splitAt with
  | none =>
    rw [hx.stay hsplit, hreset]
    simp
  | some stop =>
    rw [hx.split stop hsplit, List.length_take, List.length_cons]
    simp only [Option.isSome_some, if_true, true_and]
    split
    · simp only [List.length_singleton]
      omega
    · simp only [List.length_nil]
      omega

theorem forgotten_add_kept (capacity : ℕ) (edits : List (Edit k v)) :
    ((sinceReset ((new capacity).attempts edits)).flatMap Attempt.events).length +
        (after capacity edits).closed.length =
      (sinceReset ((new capacity).attempts edits)).countP (·.splitAt.isSome) := by
  induction edits using List.reverseRecOn with
  | nil => rfl
  | append_singleton edits edit ih =>
    have hx := prunes_after capacity edits edit
    rw [attempts_concat, sinceReset_concat, after_concat]
    cases hreset : edit.isReset with
    | true =>
      cases edit with
      | reset value => rfl
      | _ => cases hreset
    | false =>
      have hbalance := hx.balance hreset
      simp only [Bool.false_eq_true, if_false, List.flatMap_append, List.flatMap_singleton,
        List.length_append, List.countP_append, List.countP_singleton]
      change _ + (Attempt.events ⟨after capacity edits, edit⟩).length +
        (Attempt.after ⟨after capacity edits, edit⟩).closed.length = _
      change _ = (after capacity edits).closed.length + _ at hbalance
      omega

/-- Of two histories with the same edits, the one that keeps fewer ranges gives the same results and
has the newest closed ranges of the other one. Nothing else tells them apart. An edit that is
accepted forgets one range at most, which is reported. Since the last reset, the ranges that were
reported and those that are kept are as many as the edits that closed one. All edits are answered if
the ranges of a full history can be counted. -/
theorem newest_of_capacity_le :
    (∀ {few many : ℕ}, max few 1 ≤ max many 1 → many + 1 < UInt64.size → ∀ edits : List (Edit k v),
        let short := after few edits
        let long := after many edits
        ((new few : History k v).applyAll edits).overflow = false ∧
          ((new many : History k v).applyAll edits).overflow = false ∧
          ((new few : History k v).applyAll edits).value.2 = ((new many).applyAll edits).value.2 ∧
          short.start = long.start ∧ short.value = long.value ∧
          short.closed = long.closed.take (min long.closed.length (max few 1))) ∧
      ∀ {capacity : ℕ}, capacity + 1 < UInt64.size → ∀ edits : List (Edit k v),
        let xs := (new capacity).attempts edits
        ((new capacity).applyAll edits).overflow = false ∧
          ((new capacity).applyAll edits).events = xs.flatMap Attempt.events ∧
          (∀ x ∈ xs, x.Prunes (max capacity 1)) ∧
          ((sinceReset xs).flatMap Attempt.events).length + (after capacity edits).closed.length =
            (sinceReset xs).countP (·.splitAt.isSome) := by
  refine ⟨fun {few many} hle hmany edits => ?_, fun {capacity} hcapacity edits => ?_⟩
  · obtain ⟨hresults, hforgets⟩ := (Forgets.new (k := k) (v := v) hle).applyAll edits
    have hfew : few + 1 < UInt64.size := lt_size_of_max_le hle hmany
    refine ⟨overflow_applyAll (new_capacity_lt hfew) edits,
      overflow_applyAll (new_capacity_lt hmany) edits, hresults, hforgets.start, hforgets.value, ?_⟩
    rw [min_comm, ← List.take_eq_take_min, ← (keeps_after few edits).room]
    exact hforgets.closed
  · exact ⟨overflow_applyAll (new_capacity_lt hcapacity) edits, events_applyAll _ edits,
      fun x hx => prunes_of_mem hx, forgotten_add_kept capacity edits⟩

/-- Three edits close a range, one widens a gap, and the last one is refused. -/
private def narrowed : List (Edit 8 16) :=
  [.exclude 10 12, .lowerFrom 20 5, .exclude 30 31, .exclude 31 33, .exclude 5 6]

theorem newest_of_capacity_le_narrowed :
    max 1 1 ≤ max 3 1 ∧
      (after 3 narrowed).closed = [⟨20, 29, 0xfffd⟩, ⟨12, 19, 2⟩, ⟨0, 9, 0⟩] ∧
      (after 1 narrowed).closed = [⟨20, 29, 0xfffd⟩] ∧
      ((new 1 : History 8 16).applyAll narrowed).events = [.pruned 1 12, .pruned 1 20] ∧
      ((sinceReset ((new 1).attempts narrowed)).flatMap Attempt.events).length = 2 := by
  obtain ⟨hnewest, hpruned⟩ := newest_of_capacity_le (k := 8) (v := 16)
  have hle : max 1 1 ≤ max 3 1 := by decide
  have hlong : (after 3 narrowed).closed = [⟨20, 29, 0xfffd⟩, ⟨12, 19, 2⟩, ⟨0, 9, 0⟩] := by decide
  obtain ⟨-, -, -, -, -, hshort⟩ := hnewest hle (by decide) narrowed
  rw [hlong] at hshort
  have hfits : 1 + 1 < UInt64.size := by decide
  obtain ⟨-, hevents, -, hcount⟩ := hpruned hfits narrowed
  rw [hshort] at hcount
  have hsplits : (sinceReset ((new 1).attempts narrowed)).countP (·.splitAt.isSome) = 3 := by
    decide
  exact ⟨hle, hlong, hshort, hevents.trans (by decide), Nat.succ.inj (hcount.trans hsplits)⟩

/-- The largest history has no results where a shorter one has. -/
theorem newest_of_capacity_le_overflow :
    max 1 1 ≤ max (UInt64.size - 1) 1 ∧
      ((new 1 : History 32 32).applyAll [.exclude 10 12, .exclude 20 22]).outcome.isSome ∧
      ((new (UInt64.size - 1) : History 32 32).applyAll
        [.exclude 10 12, .exclude 20 22]).outcome.isNone := by
  decide

end Renumber.History
