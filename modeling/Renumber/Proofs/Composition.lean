import Renumber.Proofs.Retention

/-! Exclusions and adjustments one after the other. The first one may close the open range, and each
later one from there on changes the next range in place, so together they do what one edit does. -/
namespace Renumber.History

variable {k v : ℕ}

/-- Exclusions of stretches with the given widths, each one from where the last one stops. -/
def chunks (first : BitVec k) : List ℕ → List (Edit k v)
  | [] => []
  | width :: rest =>
    .exclude first (first + BitVec.ofNat k width) :: chunks (first + BitVec.ofNat k width) rest

variable {h : History k v} {first middle next : BitVec k} {value value' : BitVec v} {width : ℕ}

theorem oldestStart_congr {h h' : History k v} (hclosed : h.closed = h'.closed)
    (hne : h'.closed ≠ []) : h.oldestStart = h'.oldestStart := by
  unfold oldestStart
  rw [hclosed, List.getLast?_eq_some_getLast hne]
  rfl

/-- The range that is closed and the one that is forgotten do not depend on where the next one
starts. -/
theorem events_split_congr (hroom : 0 < h.capacity) (stop middle next : BitVec k)
    (value value' : BitVec v) :
    (h.split stop middle value).events = (h.split stop next value').events := by
  have hne : ((⟨h.start, stop - 1, h.value⟩ : Span k v) :: h.closed).take h.capacity ≠ [] := by
    simp [hroom.ne.symm]
  have holdest : (h.split stop middle value).value.oldestStart =
      (h.split stop next value').value.oldestStart := oldestStart_congr rfl hne
  change (prune _).value.oldestStart = (prune _).value.oldestStart at holdest
  rw [value_prune, value_prune] at holdest
  simp only [split, prune, Traced.events_bind, Traced.events_reportIf, Traced.events_pure, holdest]

theorem settle_settle (hroom : 0 < h.capacity) (stop middle next : BitVec k)
    (value value' : BitVec v) :
    (h.settle stop middle value >>= fun h' => h'.settle middle next value') =
      h.settle stop next value' := by
  have hinPlace : (h.settle stop middle value >>= fun h' => h'.settle middle next value') =
      (fun h' => { h' with start := next, value := value' }) <$> h.settle stop middle value := by
    have hstart : (h.settle stop middle value).value.start = middle := by
      rw [value_settle, advance_start]
    rw [← bind_pure_comp]
    apply Traced.bind_congr
    exact if_pos hstart.symm
  rw [hinPlace]
  unfold settle
  by_cases hstop : stop = h.start
  · rw [if_pos hstop, if_pos hstop]
    rfl
  · rw [if_neg hstop, if_neg hstop]
    apply Traced.ext
    · rfl
    · rw [Traced.events_map]
      exact events_split_congr hroom ..
    · rw [Traced.overflow_map, overflow_split, overflow_split]

/-- What follows an edit may be told from the history that the edit leaves. -/
theorem settle_bind {α : Type} {f : History k v → Traced α} {g : History k v → α}
    (hroom : 0 < h.capacity)
    (hf : f (h.advance first middle value) =
      g <$> (h.advance first middle value).settle middle next value') :
    h.settle first middle value >>= f = g <$> h.settle first next value' := by
  rw [← settle_settle hroom first middle next value value', map_bind]
  rw [← value_settle] at hf
  exact Traced.bind_congr hf

/-- A stretch of less than half the space is left out unless it starts before the open range. -/
theorem apply_exclude_width (hpos : 0 < width) (hshort : width < (Serial.halfRange k).toNat) :
    h.apply (.exclude first (first + BitVec.ofNat k width)) =
      if Serial.precedes first h.start then pure (h, .error .reversed)
      else (·, .ok ()) <$>
        h.settle first (first + BitVec.ofNat k width) (h.value + BitVec.ofNat v width) := by
  have hlt : width < 2 ^ k := hshort.trans (Serial.halfRange k).isLt
  have hdistance : Serial.distance (first + BitVec.ofNat k width) first = BitVec.ofNat k width := by
    rw [Serial.distance, BitVec.add_comm, BitVec.add_sub_cancel]
  have hnat : (BitVec.ofNat k width).toNat = width := by
    rw [BitVec.toNat_ofNat, Nat.mod_eq_of_lt hlt]
  have hvalue : (BitVec.ofNat k width).setWidth v = BitVec.ofNat v width := by
    apply BitVec.eq_of_toNat_eq
    rw [BitVec.toNat_setWidth, hnat, BitVec.toNat_ofNat]
  have hne : BitVec.ofNat k width ≠ 0 := by
    intro hzero
    rw [hzero] at hnat
    exact hpos.ne hnat
  have hnot : ¬ Serial.halfRange k ≤ BitVec.ofNat k width := by
    rw [BitVec.le_def, hnat]
    exact hshort.not_ge
  rw [apply_exclude, hdistance, hvalue]
  simp only [hne, hnot, false_or]

theorem applyAll_cons (h : History k v) (edit : Edit k v) (rest : List (Edit k v)) :
    h.applyAll (edit :: rest) =
      h.apply edit >>= fun x => Prod.map id (x.2 :: ·) <$> x.1.applyAll rest := by
  rw [applyAll]
  simp only [← bind_pure_comp]
  rfl

theorem applyAll_pair (h : History k v) (edit edit' : Edit k v) :
    h.applyAll [edit, edit'] =
      h.apply edit >>= fun x => Prod.map id ([x.2, ·]) <$> x.1.apply edit' := by
  have hlast : ∀ h' : History k v, h'.applyAll [edit'] = Prod.map id ([·]) <$> h'.apply edit' := by
    intro h'
    rw [applyAll_cons]
    simp only [applyAll, map_pure, bind_pure_comp]
    rfl
  rw [applyAll_cons]
  simp only [hlast, Functor.map_map]
  rfl

/-- Where a key does not precede another one, no key precedes itself. -/
theorem precedes_self_eq_false {key start : BitVec k} (h : Serial.precedes key start = false)
    (other : BitVec k) : Serial.precedes other other = false := by
  rw [Serial.precedes_eq_not, Bool.not_eq_false', Serial.isOnOrAfter, decide_eq_true_eq,
    BitVec.lt_def] at h
  rw [Serial.precedes_eq_not, Serial.isOnOrAfter_self (Nat.zero_lt_of_lt h)]
  rfl

/-- Once the first stretch is excluded, the next ones widen the gap that it left. -/
theorem applyAll_chunks (hroom : 0 < h.capacity) (hstart : Serial.precedes first h.start = false)
    {widths : List ℕ} (hne : widths ≠ []) (hpos : ∀ width ∈ widths, 0 < width)
    (hshort : widths.sum < (Serial.halfRange k).toNat) :
    h.applyAll (chunks first widths) =
      (·, List.replicate widths.length (.ok ())) <$>
        h.settle first (first + BitVec.ofNat k widths.sum)
          (h.value + BitVec.ofNat v widths.sum) := by
  induction widths generalizing h first with
  | nil => exact absurd rfl hne
  | cons width rest ih =>
    rw [List.forall_mem_cons] at hpos
    obtain ⟨hwidth, hrest⟩ := hpos
    rw [List.sum_cons] at hshort ⊢
    rw [chunks, applyAll_cons, apply_exclude_width hwidth (by omega), hstart,
      if_neg Bool.false_ne_true, bind_map_left]
    by_cases hlast : rest = []
    · subst hlast
      simp only [chunks, applyAll, map_pure, bind_pure_comp]
      rfl
    · have hself := precedes_self_eq_false hstart (first + BitVec.ofNat k width)
      apply settle_bind hroom
      rw [ih (by rwa [advance_capacity]) (by rwa [advance_start]) hlast hrest (by omega),
        Functor.map_map, advance_value, BitVec.ofNat_add, BitVec.ofNat_add, BitVec.add_assoc,
        BitVec.add_assoc]
      rfl

theorem lowerFrom_lowerFrom (hroom : 0 < h.capacity) (key : BitVec k) (delta delta' : BitVec v) :
    h.applyAll [.lowerFrom key delta, .lowerFrom key delta'] =
      (fun x => (x.1, [x.2, x.2])) <$> h.apply (.lowerFrom key (delta + delta')) := by
  rw [applyAll_pair, apply_lowerFrom, apply_lowerFrom]
  cases hstart : Serial.precedes key h.start with
  | true =>
    rw [if_pos rfl, if_pos rfl, pure_bind, apply_lowerFrom, if_pos hstart]
    rfl
  | false =>
    have hself := precedes_self_eq_false hstart key
    rw [if_neg Bool.false_ne_true, if_neg Bool.false_ne_true, bind_map_left, Functor.map_map]
    apply settle_bind hroom
    rw [apply_lowerFrom, advance_start, hself, if_neg Bool.false_ne_true, Functor.map_map,
      advance_value, BitVec.sub_sub]
    rfl

/-- The open range is closed before the stretch that is left out, and a new one is opened after it
with the lowered value. -/
theorem lowerFrom_exclude (hroom : 0 < h.capacity) (hstart : Serial.precedes first h.start = false)
    (hpos : 0 < width) (hshort : width < (Serial.halfRange k).toNat) (delta : BitVec v) :
    h.applyAll [.lowerFrom first delta, .exclude first (first + BitVec.ofNat k width)] =
      (·, [.ok (), .ok ()]) <$> h.settle first (first + BitVec.ofNat k width)
        (h.value + BitVec.ofNat v width - delta) := by
  have hself := precedes_self_eq_false hstart first
  have hvalue : h.value + BitVec.ofNat v width - delta =
      h.value - delta + BitVec.ofNat v width := by ring
  rw [applyAll_pair, apply_lowerFrom, hstart, if_neg Bool.false_ne_true, bind_map_left]
  apply settle_bind hroom
  rw [apply_exclude_width hpos hshort, advance_start, hself, if_neg Bool.false_ne_true,
    Functor.map_map, advance_value, hvalue]
  rfl

theorem exclude_lower (hroom : 0 < h.capacity) (hstart : Serial.precedes first h.start = false)
    (hpos : 0 < width) (hshort : width < (Serial.halfRange k).toNat) (delta : BitVec v) :
    h.applyAll [.exclude first (first + BitVec.ofNat k width), .lower delta] =
      (·, [.ok (), .ok ()]) <$> h.settle first (first + BitVec.ofNat k width)
        (h.value + BitVec.ofNat v width - delta) := by
  rw [applyAll_pair, apply_exclude_width hpos hshort, hstart, if_neg Bool.false_ne_true,
    bind_map_left]
  apply settle_bind hroom
  rw [apply_lower (advance_start ..), advance_value, Functor.map_map]
  rfl

theorem chunks_refused (hstart : Serial.precedes first h.start = true) {widths : List ℕ}
    (hne : widths ≠ []) (hpos : ∀ width ∈ widths, 0 < width)
    (hshort : widths.sum < (Serial.halfRange k).toNat) :
    .error .reversed ∈ (h.applyAll (chunks first widths)).value.2 := by
  obtain ⟨width, rest, rfl⟩ := List.exists_cons_of_ne_nil hne
  rw [List.sum_cons] at hshort
  have hwidth := hpos width List.mem_cons_self
  rw [chunks, applyAll_cons, apply_exclude_width hwidth (by omega), hstart, if_pos rfl, pure_bind]
  exact List.mem_cons_self

/-- A stretch is left out as a whole just when it is left out piece by piece. -/
theorem exclude_chunks (hroom : 0 < h.capacity) (first : BitVec k) {widths : List ℕ}
    (hpos : ∀ width ∈ widths, 0 < width) (hshort : widths.sum < (Serial.halfRange k).toNat) :
    let whole := h.apply (.exclude first (first + BitVec.ofNat k widths.sum))
    let parts := h.applyAll (chunks first widths)
    (whole.value.2 = .ok () ↔ widths ≠ [] ∧ ∀ result ∈ parts.value.2, result = .ok ()) ∧
      (whole.value.2 = .ok () → parts.value.1 = whole.value.1 ∧ parts.events = whole.events) := by
  intro whole parts
  by_cases hne : widths = []
  · have hwhole : whole = pure (h, .error .reversed) := by
      subst hne
      exact (apply_exclude ..).trans (if_pos (Or.inl (by simp [Serial.distance])))
    simp [hwhole, hne]
  have hsum : 0 < widths.sum := by
    obtain ⟨width, rest, rfl⟩ := List.exists_cons_of_ne_nil hne
    rw [List.sum_cons]
    exact Nat.add_pos_left (hpos width List.mem_cons_self) _
  have hwhole : whole = _ := apply_exclude_width hsum hshort
  cases hstart : Serial.precedes first h.start with
  | true =>
    have hrefused := chunks_refused hstart hne hpos hshort
    have hnot : whole.value.2 ≠ .ok () := by
      rw [hwhole, hstart, if_pos rfl]
      intro hok
      cases hok
    refine ⟨iff_of_false hnot fun hparts => ?_, fun hok => absurd hok hnot⟩
    cases hparts.2 _ hrefused
  | false =>
    rw [hstart, if_neg Bool.false_ne_true] at hwhole
    have hparts : parts = _ := applyAll_chunks hroom hstart hne hpos hshort
    rw [hwhole, hparts]
    refine ⟨iff_of_true rfl ⟨hne, fun result hresult => ?_⟩, fun _ => ⟨rfl, ?_⟩⟩
    · exact List.eq_of_mem_replicate hresult
    · rw [Traced.events_map, Traced.events_map]

/-- After any edits, leaving out a stretch of less than half the space is the same as leaving out
its pieces one after the other, and is accepted just when all of them are. Two adjustments from one
key on are the same as their sum. An adjustment and an exclusion from one key on may trade
places. All of these are answered if the ranges of a full history can be counted. -/
theorem edits_compose {capacity : ℕ} (hcapacity : capacity + 1 < UInt64.size)
    (edits : List (Edit k v)) :
    let h := after capacity edits
    (∀ later, ((new capacity).applyAll (edits ++ later)).overflow = false) ∧
      (∀ (first : BitVec k) (widths : List ℕ), (∀ width ∈ widths, 0 < width) →
        widths.sum < (Serial.halfRange k).toNat →
        let whole := h.apply (.exclude first (first + BitVec.ofNat k widths.sum))
        let parts := h.applyAll (chunks first widths)
        (whole.value.2 = .ok () ↔ widths ≠ [] ∧ ∀ result ∈ parts.value.2, result = .ok ()) ∧
          (whole.value.2 = .ok () → parts.value.1 = whole.value.1 ∧ parts.events = whole.events)) ∧
      (∀ (key : BitVec k) (delta delta' : BitVec v),
        h.applyAll [.lowerFrom key delta, .lowerFrom key delta'] =
          (fun x => (x.1, [x.2, x.2])) <$> h.apply (.lowerFrom key (delta + delta'))) ∧
      ∀ (key : BitVec k) (width : ℕ) (delta : BitVec v), 0 < width →
        width < (Serial.halfRange k).toNat →
        let stretch : Edit k v := .exclude key (key + BitVec.ofNat k width)
        (h.apply (.lowerFrom key delta)).value.2 = .ok () ∨ (h.apply stretch).value.2 = .ok () →
        h.applyAll [.lowerFrom key delta, stretch] = h.applyAll [stretch, .lower delta] ∧
          (h.applyAll [stretch, .lower delta]).value.2 = [.ok (), .ok ()] := by
  intro h
  have hroom : 0 < h.capacity := by
    rw [(keeps_after capacity edits).room]
    omega
  refine ⟨fun later => overflow_applyAll (new_capacity_lt hcapacity) (edits ++ later),
    fun first widths => exclude_chunks hroom first, lowerFrom_lowerFrom hroom, ?_⟩
  intro key width delta hpos hshort stretch hok
  have hstart : Serial.precedes key h.start = false := by
    rw [apply_lowerFrom, apply_exclude_width hpos hshort] at hok
    by_contra hstart
    rw [Bool.not_eq_false] at hstart
    rw [hstart, if_pos rfl, if_pos rfl] at hok
    rcases hok with hok | hok <;> cases hok
  have hexclude := exclude_lower hroom hstart hpos hshort delta
  exact ⟨(lowerFrom_exclude hroom hstart hpos hshort delta).trans hexclude.symm,
    congrArg (·.value.2) hexclude⟩

/-- The last edit opens a range shortly before the keys wrap, with a value that has wrapped. -/
private def nearWrap : List (Edit 8 4) :=
  [.exclude 100 103, .lowerFrom 200 5, .exclude 250 252]

theorem edits_compose_nearWrap :
    after 1 nearWrap = ⟨1, [⟨200, 249, 14⟩], 252, 0⟩ ∧
      ((after 1 nearWrap).applyAll (chunks 254 [3, 20, 1])).value.1 = ⟨1, [⟨252, 253, 0⟩], 22, 8⟩ ∧
      ((after 1 nearWrap).applyAll (chunks 254 [3, 20, 1])).events = [.pruned 1 252] ∧
      ((after 1 nearWrap).applyAll [.lowerFrom 254 9, .exclude 254 22]).value.1 =
        ⟨1, [⟨252, 253, 0⟩], 22, 15⟩ := by
  have hafter : after 1 nearWrap = ⟨1, [⟨200, 249, 14⟩], 252, 0⟩ := by decide
  have hcapacity : 1 + 1 < UInt64.size := by decide
  obtain ⟨-, hchunks, -, hmixed⟩ := edits_compose hcapacity nearWrap
  rw [hafter] at hchunks hmixed ⊢
  obtain ⟨-, hwhole⟩ := hchunks 254 [3, 20, 1] (by decide) (by decide)
  obtain ⟨hsame, hevents⟩ := hwhole (by decide)
  obtain ⟨hlowered, -⟩ := hmixed 254 24 9 (by decide) (by decide) (Or.inl (by decide))
  have hvalue := congrArg (·.value.1) hlowered
  exact ⟨rfl, hsame.trans (by decide), hevents.trans (by decide), hvalue.trans (by decide)⟩

/-- With the largest capacity neither two adjustments nor their sum leave a history. -/
theorem edits_compose_overflow :
    ((new (UInt64.size - 1) : History 32 32).applyAll [.lowerFrom 5 1, .lowerFrom 5 1]).outcome = none ∧
      ((new (UInt64.size - 1) : History 32 32).apply (.lowerFrom 5 2)).outcome = none := by
  decide

end Renumber.History
