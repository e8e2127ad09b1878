import Renumber.Proofs.Tracking

/-! Handles that no track uses any more. What is asked through such a handle concerns its numbering
alone, and nothing else in the registry depends on that numbering. -/
namespace Renumber.Registry

open Traced

variable {r : Registry} {track : TrackId} {h : Handle}

/-- Opening a track does not give it a handle that another one was given. -/
theorem getOrCreate_ne_ok (hlt : h.index < r.numberings.length) (hunused : r.find? track ≠ some h) :
    (r.getOrCreate track).value.2 ≠ .ok h := by
  intro heq
  rcases opened_cases (Prod.ext rfl heq) with ⟨hfind, -⟩ | ⟨-, -, -, rfl⟩
  · exact hunused hfind
  · exact Nat.lt_irrefl _ hlt

/-- No track uses the numbering any more. -/
structure Stale (r : Registry) (h : Handle) : Prop where
  given : h.index < r.numberings.length
  unused : ∀ track, r.find? track ≠ some h

theorem Stale.next (hstale : r.Stale h) (hs : r.Sound) (request : Request) :
    (r.next request).Stale h := by
  have hlt := hstale.given
  cases hs.turn request with
  | keeps tracks size =>
    refine ⟨by rwa [size], fun track => ?_⟩
    rw [find?_eq_of_tracks tracks]
    exact hstale.unused track
  | creates added fresh tracks size =>
    refine ⟨by omega, fun track => ?_⟩
    rw [find?_of_tracks_append tracks]
    intro heq
    rcases Option.or_eq_some_iff.mp heq with hfind | ⟨-, hadded⟩
    · exact hstale.unused track hfind
    · split at hadded
      · obtain rfl := Option.some.inj hadded
        exact Nat.lt_irrefl _ hlt
      · cases hadded
  | removes gone _ tracks size =>
    refine ⟨by rwa [size], fun track => ?_⟩
    rw [find?_of_tracks_filter tracks]
    split
    · exact nofun
    · exact hstale.unused track

theorem Stale.after (hstale : r.Stale h) (hr : r.Orderly) (requests : List Request) :
    (r.after requests).Stale h := by
  induction requests generalizing r with
  | nil => exact hstale
  | cons request rest ih => exact ih (hstale.next hr.sound request) (hr.next request)

/-- What a request asks through a handle. -/
def through (h : Handle) : Request → Option Numbering.Request
  | .via h' request => if h' = h then some request else none
  | _ => none

/-! ### The numbering of a stale handle is of no consequence -/

theorem set_comm {h' : Handle} (hne : h ≠ h') (n m : Numbering) :
    (r.set h n).set h' m = (r.set h' m).set h n := by
  rw [set, set, set, set, List.set_comm n m (index_ne hne)]

theorem set_set (n m : Numbering) : (r.set h n).set h m = r.set h m := by
  rw [set, set, set, List.set_set]

theorem set_numbering (hlt : h.index < r.numberings.length) : r.set h (r.numbering h) = r := by
  have hget : r.numberings[h.index] = r.numbering h :=
    (numbering_of_get? (List.getElem?_eq_getElem hlt)).symm
  rw [set, ← hget, List.set_getElem_self]

theorem create_set (hlt : h.index < r.numberings.length) (n : Numbering) (track : TrackId) :
    (r.set h n).create track = ((r.create track).1.set h n, (r.create track).2) := by
  simp only [create, set, List.length_set, List.set_append_left _ _ hlt]

theorem value_getOrCreate_set (hlt : h.index < r.numberings.length) (n : Numbering)
    (track : TrackId) :
    ((r.set h n).getOrCreate track).value =
      ((r.getOrCreate track).value.1.set h n, (r.getOrCreate track).value.2) := by
  have hfind : (r.set h n).find? track = r.find? track := rfl
  have hfull : (r.set h n).isFull = r.isFull := rfl
  rw [value_getOrCreate, value_getOrCreate, hfind, hfull, create_set hlt, set, List.length_set]
  cases r.find? track with
  | some used => rfl
  | none => cases r.isFull <;> rfl

theorem numbering_set_of_ne (hlt : h.index < r.numberings.length) {h' : Handle} (hne : h' ≠ h)
    (n : Numbering) : (r.set h n).numbering h' = r.numbering h' := by
  rw [numbering_set hlt, if_neg hne.symm]

namespace Stale

theorem forward_set (hstale : r.Stale h) (hs : r.Sound) (n : Numbering) (track : TrackId)
    (p : Packet) :
    ((r.set h n).forward track p).value =
      ((r.forward track p).value.1.set h n, (r.forward track p).value.2) := by
  have hset := value_getOrCreate_set hstale.given n track
  have hopens := hs.opens track
  have hne := getOrCreate_ne_ok hstale.given (hstale.unused track)
  have hgrows := length_le_getOrCreate r track
  rcases hopen : (r.getOrCreate track).value with ⟨opened, e | h'⟩
  · rw [hopen] at hset
    rw [value_forward_of_error p hset, value_forward_of_error p hopen]
  · rw [hopen] at hset hopens hne hgrows
    have hother : h' ≠ h := fun heq => hne (congrArg Except.ok heq)
    have hlt := hopens.named h' rfl
    have hgiven : h.index < opened.numberings.length := Nat.lt_of_lt_of_le hstale.given hgrows
    rw [value_forward_of_ok p hopen hlt,
      value_forward_of_ok p hset (by rwa [set, List.length_set]),
      numbering_set_of_ne hgiven hother, set_comm hother.symm]

theorem restart_set (hstale : r.Stale h) (hs : r.Sound) (n : Numbering) (track : TrackId) :
    ((r.set h n).restart track).value =
      ((r.restart track).value.1.set h n, (r.restart track).value.2) := by
  have hfind : (r.set h n).find? track = r.find? track := rfl
  rw [value_restart (hs.set h n), value_restart hs, hfind]
  cases hused : r.find? track with
  | some h' =>
    have hother : h' ≠ h := fun heq => hstale.unused track (hused.trans (congrArg some heq))
    simp only [numbering_set_of_ne hstale.given hother, set_comm hother.symm]
  | none => rfl

/-- A request that does not go through the handle has the same reply, whatever its numbering is. -/
theorem serve_set (hstale : r.Stale h) (hs : r.Sound) (n : Numbering) {request : Request}
    (hother : through h request = none) :
    ((r.set h n).serve request).value =
      ((r.serve request).value.1.set h n, (r.serve request).value.2) := by
  cases request with
  | getOrCreate track =>
    simp only [serve, value_map, value_getOrCreate_set hstale.given]
  | forward track p =>
    simp only [serve, value_map, hstale.forward_set hs]
  | restart track =>
    simp only [serve, value_map, hstale.restart_set hs]
  | remove track =>
    have hfind : (r.set h n).find? track = r.find? track := rfl
    simp only [serve, value_map, value_remove, hfind]
    cases r.find? track <;> rfl
  | via h' request =>
    have hne : h' ≠ h := fun heq => by simp [through, heq] at hother
    by_cases hlt : h'.index < r.numberings.length
    · have hltset : h'.index < (r.set h n).numberings.length := by rwa [set, List.length_set]
      rw [value_via_of_lt hlt, value_via_of_lt hltset, numbering_set_of_ne hstale.given hne,
        set_comm hne.symm]
    · have hget : r.get? h' = none := List.getElem?_eq_none (Nat.le_of_not_lt hlt)
      have hgetset : (r.set h n).get? h' = none :=
        List.getElem?_eq_none (by rw [set, List.length_set]; exact Nat.le_of_not_lt hlt)
      simp only [serve, via, hget, hgetset]
      rfl

/-- A request through the handle changes its numbering alone. -/
theorem exists_next_eq_set (hstale : r.Stale h) {request : Request} {q : Numbering.Request}
    (hthrough : through h request = some q) : ∃ n, r.next request = r.set h n := by
  cases request with
  | via h' asked =>
    rw [through] at hthrough
    split at hthrough
    · next hsame =>
      subst hsame
      exact ⟨_, congrArg Prod.fst (value_via_of_lt hstale.given asked)⟩
    · cases hthrough
  | getOrCreate track => cases hthrough
  | forward track p => cases hthrough
  | restart track => cases hthrough
  | remove track => cases hthrough

theorem set (hstale : r.Stale h) (n : Numbering) : (r.set h n).Stale h :=
  ⟨by rw [Registry.set, List.length_set]; exact hstale.given, hstale.unused⟩

theorem stats?_set (hstale : r.Stale h) (n : Numbering) (track : TrackId) :
    (r.set h n).stats? track = r.stats? track := by
  have hfind : (r.set h n).find? track = r.find? track := rfl
  rw [stats?, stats?, hfind]
  cases hused : r.find? track with
  | none => rfl
  | some h' =>
    have hother : h ≠ h' := fun heq => hstale.unused track (heq ▸ hused)
    simp only [Option.bind_some, get?_set_of_ne hother]

/-- The requests that do not go through the handle fare as if they were the only ones. -/
theorem transcript_filter (hstale : r.Stale h) (hr : r.Orderly) (n : Numbering)
    (requests : List Request) :
    ((r.set h n).transcript requests).filter (fun entry => (through h entry.1).isNone) =
        r.transcript (requests.filter fun request => (through h request).isNone) ∧
      ∃ m, (r.set h n).after requests =
        (r.after (requests.filter fun request => (through h request).isNone)).set h m := by
  induction requests generalizing r n with
  | nil => exact ⟨rfl, n, rfl⟩
  | cons request rest ih =>
    rw [transcript_cons]
    cases hthrough : through h request with
    | none =>
      have hserve := hstale.serve_set hr.sound n hthrough
      have hnext : (r.set h n).next request = (r.next request).set h n := congrArg Prod.fst hserve
      obtain ⟨hrest, m, hafter⟩ := ih (hstale.next hr.sound request) (hr.next request) n
      rw [List.filter_cons_of_pos (by simp [hthrough]),
        List.filter_cons_of_pos (by simp [hthrough]), transcript_cons, hserve, hnext, hrest]
      exact ⟨rfl, m, (congrArg (Registry.after · rest) hnext).trans hafter⟩
    | some q =>
      obtain ⟨n', hnext⟩ := (hstale.set n).exists_next_eq_set hthrough
      rw [set_set] at hnext
      obtain ⟨hrest, m, hafter⟩ := ih hstale hr n'
      rw [List.filter_cons_of_neg (by simp [hthrough]),
        List.filter_cons_of_neg (by simp [hthrough]), hnext]
      exact ⟨hrest, m, (congrArg (Registry.after · rest) hnext).trans hafter⟩

end Stale

end Renumber.Registry
