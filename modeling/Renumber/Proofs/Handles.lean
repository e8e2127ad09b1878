import Renumber.Proofs.Stale

/-! Handles name numberings. The handle of a track names its numbering until the track is removed.
Afterwards the numbering lives on apart from the registry. -/
namespace Renumber.Registry

open Traced

variable {r : Registry} {track : TrackId} {h : Handle} {requests : List Request}

/-- The track is tracked at some point of the run, and removed. -/
def Removes (r : Registry) (track : TrackId) (requests : List Request) : Prop :=
  (.remove track, .removed true) ∈ r.transcript requests

theorem Removes.mem (h : r.Removes track requests) : .remove track ∈ requests :=
  (List.of_mem_zip h).1

/-- A track keeps its handle, unless it is removed. Then the handle is of no use to any track. -/
theorem Orderly.stays_or_goes (hr : r.Orderly) (hfind : r.find? track = some h)
    (request : Request) :
    (request, (r.serve request).value.2) ≠ (.remove track, .removed true) ∧
        (r.next request).find? track = some h ∨
      (request, (r.serve request).value.2) = (.remove track, .removed true) ∧
        (r.next request).Stale h := by
  cases hr.sound.turn request with
  | keeps tracks size reply =>
    refine Or.inl ⟨fun heq => ?_, (find?_eq_of_tracks tracks track).trans hfind⟩
    obtain ⟨hnone, -⟩ := reply track (congrArg Prod.fst heq)
    rw [hnone] at hfind
    cases hfind
  | creates added fresh tracks size reply =>
    refine Or.inl ⟨fun heq => reply track (congrArg Prod.fst heq), ?_⟩
    rw [find?_of_tracks_append tracks, hfind]
    rfl
  | removes gone asked tracks size reply =>
    by_cases hsame : track = gone
    · subst hsame
      refine Or.inr ⟨by rw [asked] at reply ⊢; rw [reply], ?_, fun track' heq => ?_⟩
      · rw [size]
        exact hr.sound.lt_of_find? hfind
      · rw [find?_of_tracks_filter tracks] at heq
        split at heq
        · cases heq
        · next hne => exact hne (hr.track_eq heq hfind)
    · refine Or.inl ⟨fun heq => ?_, ?_⟩
      · rw [asked] at heq
        cases congrArg Prod.fst heq
        exact hsame rfl
      · rw [find?_of_tracks_filter tracks, if_neg hsame, hfind]

theorem Orderly.find?_after (hr : r.Orderly) (hfind : r.find? track = some h)
    (hkept : ¬r.Removes track requests) : (r.after requests).find? track = some h := by
  induction requests generalizing r with
  | nil => exact hfind
  | cons request rest ih =>
    rw [Removes, transcript_cons, List.mem_cons, not_or] at hkept
    rcases hr.stays_or_goes hfind request with ⟨-, hstays⟩ | ⟨hgone, -⟩
    · exact ih (hr.next request) hstays hkept.2
    · exact absurd hgone.symm hkept.1

theorem Orderly.stale_after (hr : r.Orderly) (hfind : r.find? track = some h)
    (hgone : r.Removes track requests) : (r.after requests).Stale h := by
  induction requests generalizing r with
  | nil => cases hgone
  | cons request rest ih =>
    rw [Removes, transcript_cons, List.mem_cons] at hgone
    rcases hr.stays_or_goes hfind request with ⟨hne, hstays⟩ | ⟨-, hstale⟩
    · exact ih (hr.next request) hstays (hgone.resolve_left (Ne.symm hne))
    · exact hstale.after (hr.next request) rest

/-- What a request asks of the numbering of a tracked track, by its name or through its handle. -/
def heard (track : TrackId) (h : Handle) : Request → Option Numbering.Request
  | .forward track' p => if track' = track then some (.forward p) else none
  | .restart track' => if track' = track then some .restart else none
  | .via h' request => if h' = h then some request else none
  | .getOrCreate _ => none
  | .remove _ => none

/-- The reply of the numbering that a request is passed on to. -/
def Reply.inner : Reply → Option Numbering.Reply
  | .forwarded (.ok answer) => some (.forwarded answer)
  | .restarted (.ok ()) => some .restarted
  | .via answer => answer
  | _ => none

/-- What a numbering replies to the requests it hears. -/
def answers (r : Registry) (hears : Request → Option Numbering.Request) (requests : List Request) :
    List (Option Numbering.Reply) :=
  (r.transcript requests).filterMap fun entry => (hears entry.1).map fun _ => entry.2.inner

/-- A numbering serves what it hears of a request, and nothing else. -/
structure Hears (r : Registry) (h : Handle) (hears : Request → Option Numbering.Request)
    (request : Request) : Prop where
  asked : r.asked h request = (hears request).toList
  answered : ∀ heard, hears request = some heard →
    (r.serve request).value.2.inner = some ((r.numbering h).serve heard).value.2

/-- It does so all along a run. -/
def HearsAll (r : Registry) (h : Handle) (hears : Request → Option Numbering.Request) :
    List Request → Prop
  | [] => True
  | request :: rest => r.Hears h hears request ∧ (r.next request).HearsAll h hears rest

theorem HearsAll.numbering_after {hears : Request → Option Numbering.Request}
    (hall : r.HearsAll h hears requests) (hs : r.Sound) :
    (r.after requests).numbering h = (r.numbering h).after (requests.filterMap hears) := by
  induction requests generalizing r with
  | nil => rfl
  | cons request rest ih =>
    obtain ⟨hfirst, hrest⟩ := hall
    have hstep := hs.delegates request
    calc (r.after (request :: rest)).numbering h
        = ((r.numbering h).after (r.asked h request)).after (rest.filterMap hears) := by
          rw [← hstep.numbering]
          exact ih hrest hstep.sound
      _ = (r.numbering h).after ((request :: rest).filterMap hears) := by
          rw [hfirst.asked, ← Numbering.after_append, List.filterMap_cons]
          cases hears request <;> rfl

theorem HearsAll.answers_eq {hears : Request → Option Numbering.Request}
    (hall : r.HearsAll h hears requests) (hs : r.Sound) :
    r.answers hears requests =
      ((r.numbering h).serveAll (requests.filterMap hears)).value.2.map some := by
  induction requests generalizing r with
  | nil => rfl
  | cons request rest ih =>
    obtain ⟨hfirst, hrest⟩ := hall
    have hstep := hs.delegates request
    have hlater := ih hrest hstep.sound
    rw [hstep.numbering, hfirst.asked] at hlater
    rw [answers, transcript_cons, List.filterMap_cons, List.filterMap_cons]
    cases hheard : hears request with
    | none =>
      rw [hheard] at hlater
      exact hlater
    | some heard =>
      rw [hheard] at hlater
      exact congrArg₂ List.cons (hfirst.answered heard hheard) hlater

theorem asked_forward_eq_nil (hlt : h.index < r.numberings.length)
    (hunused : r.find? track ≠ some h) (p : Packet) : r.asked h (.forward track p) = [] := by
  have hne := getOrCreate_ne_ok hlt hunused
  cases hopen : (r.getOrCreate track).value.2 with
  | error e =>
    refine asked_of_none ?_
    rw [passedOn, hopen]
    rfl
  | ok h' =>
    have hpassed : r.passedOn (.forward track p) = some (h', .forward p) := by
      rw [passedOn, hopen]
      rfl
    have hother : h' ≠ h := fun heq => hne (heq ▸ hopen)
    rw [asked_of_some hpassed, if_neg hother]

theorem asked_restart_eq_nil (hunused : r.find? track ≠ some h) :
    r.asked h (.restart track) = [] := by
  cases hfind : r.find? track with
  | none =>
    refine asked_of_none ?_
    rw [passedOn, hfind]
    rfl
  | some h' =>
    have hpassed : r.passedOn (.restart track) = some (h', .restart) := by
      rw [passedOn, hfind]
      rfl
    have hother : h' ≠ h := fun heq => hunused (heq ▸ hfind)
    rw [asked_of_some hpassed, if_neg hother]

theorem asked_via_eq_nil {h' : Handle} (hother : h' ≠ h) (request : Numbering.Request) :
    r.asked h (.via h' request) = [] := by
  cases hget : (r.get? h').isSome with
  | false =>
    refine asked_of_none ?_
    rw [passedOn, hget]
    rfl
  | true =>
    have hpassed : r.passedOn (.via h' request) = some (h', request) := by
      rw [passedOn, hget]
      rfl
    rw [asked_of_some hpassed, if_neg hother]

namespace Hears

variable {hears : Request → Option Numbering.Request} {request : Request}

theorem of_none (hnil : r.asked h request = []) (hnone : hears request = none) :
    r.Hears h hears request where
  asked := by
    rw [hnil, hnone]
    rfl
  answered q hq := by
    rw [hnone] at hq
    cases hq

theorem of_some {q : Numbering.Request} (hpassed : r.passedOn request = some (h, q))
    (hsome : hears request = some q)
    (hinner : (r.serve request).value.2.inner = some ((r.numbering h).serve q).value.2) :
    r.Hears h hears request where
  asked := by
    rw [asked_of_some hpassed, if_pos rfl, hsome]
    rfl
  answered q' hq' := by
    rw [hsome] at hq'
    cases hq'
    exact hinner

theorem of_via (hlt : h.index < r.numberings.length) {h' : Handle} {q : Numbering.Request}
    (hvia : hears (.via h' q) = through h (.via h' q)) : r.Hears h hears (.via h' q) := by
  by_cases hsame : h' = h
  · subst hsame
    refine of_some (q := q) ?_ (hvia.trans (if_pos rfl)) ?_
    · rw [passedOn, get?_of_lt hlt]
      rfl
    · rw [value_via_of_lt hlt]
      rfl
  · exact of_none (asked_via_eq_nil hsame q) (hvia.trans (if_neg hsame))

end Hears

theorem Orderly.hears_tracked (hr : r.Orderly) (hfind : r.find? track = some h)
    (request : Request) : r.Hears h (heard track h) request := by
  have hlt := hr.sound.lt_of_find? hfind
  have hopen : (r.getOrCreate track).value = (r, .ok h) := by
    rw [value_getOrCreate, hfind]
  have hother : ∀ track', track' ≠ track → r.find? track' ≠ some h :=
    fun track' hne hfind' => hne (hr.track_eq hfind' hfind)
  cases request with
  | getOrCreate track' => exact .of_none (asked_of_none rfl) rfl
  | remove track' => exact .of_none (asked_of_none rfl) rfl
  | forward track' p =>
    by_cases hsame : track' = track
    · subst hsame
      refine .of_some (q := .forward p) ?_ (if_pos rfl) ?_
      · rw [passedOn, hopen]
        rfl
      · rw [serve, value_map, value_forward_of_ok p hopen hlt]
        rfl
    · exact .of_none (asked_forward_eq_nil hlt (hother track' hsame) p) (if_neg hsame)
  | restart track' =>
    by_cases hsame : track' = track
    · subst hsame
      refine .of_some (q := .restart) ?_ (if_pos rfl) ?_
      · rw [passedOn, hfind]
        rfl
      · rw [serve, value_map, value_restart hr.sound, hfind]
        rfl
    · exact .of_none (asked_restart_eq_nil (hother track' hsame)) (if_neg hsame)
  | via h' q => exact .of_via hlt rfl

theorem Stale.hears (hstale : r.Stale h) (request : Request) :
    r.Hears h (through h) request := by
  have hlt := hstale.given
  cases request with
  | getOrCreate track => exact .of_none (asked_of_none rfl) rfl
  | remove track => exact .of_none (asked_of_none rfl) rfl
  | forward track p => exact .of_none (asked_forward_eq_nil hlt (hstale.unused track) p) rfl
  | restart track => exact .of_none (asked_restart_eq_nil (hstale.unused track)) rfl
  | via h' q => exact .of_via hlt rfl

/-- As long as its track is tracked, a numbering hears what is asked by name and what is asked
through its handle. -/
theorem Orderly.hearsAll_tracked (hr : r.Orderly) (hfind : r.find? track = some h)
    (hkept : ¬r.Removes track requests) : r.HearsAll h (heard track h) requests := by
  induction requests generalizing r with
  | nil => trivial
  | cons request rest ih =>
    rw [Removes, transcript_cons, List.mem_cons, not_or] at hkept
    refine ⟨hr.hears_tracked hfind request, ?_⟩
    rcases hr.stays_or_goes hfind request with ⟨-, hstays⟩ | ⟨hgone, -⟩
    · exact ih (hr.next request) hstays hkept.2
    · exact absurd hgone.symm hkept.1

/-- Afterwards it hears what is asked through its handle alone. -/
theorem Stale.hearsAll (hstale : r.Stale h) (hr : r.Orderly) (requests : List Request) :
    r.HearsAll h (through h) requests := by
  induction requests generalizing r with
  | nil => trivial
  | cons request rest ih =>
    exact ⟨hstale.hears request, ih (hstale.next hr.sound request) (hr.next request)⟩

/-- Requests by the name of the track and through its handle act on one numbering, in the order in
which they come. -/
structure Shares (r : Registry) (track : TrackId) (h : Handle) (n : Numbering)
    (requests : List Request) : Prop where
  get? : (r.after requests).get? h = some (n.after (requests.filterMap (heard track h)))
  stats? : (r.after requests).stats? track =
    some (n.after (requests.filterMap (heard track h))).stats
  answers : r.answers (heard track h) requests =
    (n.serveAll (requests.filterMap (heard track h))).value.2.map some

/-- Requests through the handle act on its numbering, which no other request changes, and nothing
else in the registry depends on them. -/
structure Detached (r : Registry) (h : Handle) (n : Numbering) (requests : List Request) :
    Prop where
  get? : (r.after requests).get? h = some (n.after (requests.filterMap (through h)))
  answers : r.answers (through h) requests =
    (n.serveAll (requests.filterMap (through h))).value.2.map some
  others : (r.transcript requests).filter (fun entry => (through h entry.1).isNone) =
    r.transcript (requests.filter fun request => (through h request).isNone)
  stats? : ∀ track, (r.after requests).stats? track =
    (r.after (requests.filter fun request => (through h request).isNone)).stats? track
  size : (r.after requests).size =
    (r.after (requests.filter fun request => (through h request).isNone)).size
  trackIds : (r.after requests).trackIds =
    (r.after (requests.filter fun request => (through h request).isNone)).trackIds

theorem Orderly.shares (hr : r.Orderly) (hfind : r.find? track = some h)
    (hkept : ¬r.Removes track requests) : r.Shares track h (r.numbering h) requests := by
  have hall := hr.hearsAll_tracked hfind hkept
  have hstill := hr.find?_after hfind hkept
  have hget : (r.after requests).get? h =
      some ((r.numbering h).after (requests.filterMap (heard track h))) := by
    rw [get?_of_lt ((hr.after requests).sound.lt_of_find? hstill),
      hall.numbering_after hr.sound]
  refine ⟨hget, ?_, hall.answers_eq hr.sound⟩
  rw [Registry.stats?, hstill, Option.bind_some, hget]
  rfl

theorem Stale.detached (hstale : r.Stale h) (hr : r.Orderly) (requests : List Request) :
    r.Detached h (r.numbering h) requests := by
  have hall := hstale.hearsAll hr requests
  obtain ⟨hothers, m, hafter⟩ := hstale.transcript_filter hr (r.numbering h) requests
  rw [set_numbering hstale.given] at hothers hafter
  have hgone := hstale.after hr (requests.filter fun request => (through h request).isNone)
  refine ⟨?_, hall.answers_eq hr.sound, hothers, fun track => ?_, ?_, ?_⟩
  · rw [get?_of_lt (hstale.after hr requests).given, hall.numbering_after hr.sound]
  · rw [hafter]
    exact hgone.stats?_set m track
  · rw [hafter]
    rfl
  · rw [hafter]
    rfl

theorem getOrCreate_of_serve {opened : Registry}
    (hopen : (r.serve (.getOrCreate track)).value = (opened, .handle (.ok h))) :
    (r.getOrCreate track).value = (opened, .ok h) := by
  rw [serve, value_map, Prod.mk.injEq] at hopen
  exact Prod.ext hopen.1 (Reply.handle.inj hopen.2)

/-- Who opens a track later gets the same handle if it is the same track and it was not removed. -/
theorem Orderly.handle_eq_iff (hr : r.Orderly) (hfind : r.find? track = some h)
    {later : List Request} {track' : TrackId} {r' : Registry} {h' : Handle}
    (hopen : ((r.after later).serve (.getOrCreate track')).value = (r', .handle (.ok h'))) :
    h' = h ↔ track' = track ∧ ¬r.Removes track later := by
  have hopened := getOrCreate_of_serve hopen
  have hreply : ((r.after later).getOrCreate track').value.2 = .ok h' := congrArg Prod.snd hopened
  constructor
  · rintro rfl
    have hkept : ¬r.Removes track later := by
      intro hgone
      have hstale := hr.stale_after hfind hgone
      exact getOrCreate_ne_ok hstale.given (hstale.unused track') hreply
    refine ⟨?_, hkept⟩
    have hstill := hr.find?_after hfind hkept
    by_contra hne
    refine getOrCreate_ne_ok ((hr.after later).sound.lt_of_find? hstill) ?_ hreply
    exact fun hfind' => hne ((hr.after later).track_eq hfind' hstill)
  · rintro ⟨rfl, hkept⟩
    have hstill := hr.find?_after hfind hkept
    rcases opened_cases hopened with ⟨hfind', -⟩ | ⟨hnone, -⟩
    · exact Option.some.inj (hfind'.symm.trans hstill)
    · rw [hnone] at hstill
      cases hstill

/-- A handle names one numbering for good. While its track is tracked, that is the numbering of the
track, which no other track shares, and requests by name and through the handle act on it in order.
Once the track is removed, whether or not it is created again, the handle and the registry go
separate ways. -/
theorem handle_names_numbering (settings : Settings) (earlier : List Request) {track : TrackId}
    {r : Registry} {h : Handle}
    (hopen : (((new settings).value.after earlier).serve (.getOrCreate track)).value =
      (r, .handle (.ok h)))
    (later : List Request) :
    (∀ {track' r' h'},
        ((r.after later).serve (.getOrCreate track')).value = (r', .handle (.ok h')) →
        (h' = h ↔ track' = track ∧ ¬r.Removes track later)) ∧
      (¬r.Removes track later →
        r.get? h = some (r.numbering h) ∧
        r.Shares track h (r.numbering h) later ∧
        ((r.after later).serve (.remove track)).value.2 = .removed true ∧
        ∀ rest, ((r.after later).next (.remove track)).Detached h
          ((r.numbering h).after (later.filterMap (heard track h))) rest) := by
  obtain ⟨hr, hfind⟩ := ((Orderly.new settings).after earlier).opened (getOrCreate_of_serve hopen)
  refine ⟨hr.handle_eq_iff hfind, fun hkept => ?_⟩
  have hstill := hr.find?_after hfind hkept
  have hlater := hr.after later
  have hremoved : ((r.after later).serve (.remove track)).value.2 = .removed true := by
    rw [serve, value_map, value_remove, hstill]
  refine ⟨get?_of_lt (hr.sound.lt_of_find? hfind), hr.shares hfind hkept, hremoved, fun rest => ?_⟩
  have hstale : ((r.after later).next (.remove track)).Stale h := by
    rcases hlater.stays_or_goes hstill (.remove track) with ⟨hne, -⟩ | ⟨-, hstale⟩
    · exact absurd (by rw [hremoved]) hne
    · exact hstale
  -- removing the track asks nothing of its numbering
  have hsame : ((r.after later).next (.remove track)).numbering h =
      (r.numbering h).after (later.filterMap (heard track h)) := by
    rw [(hlater.sound.delegates (.remove track)).numbering, asked_of_none rfl,
      ← (hr.hearsAll_tracked hfind hkept).numbering_after hr.sound]
    rfl
  rw [← hsame]
  exact hstale.detached (hlater.next (.remove track)) rest

/-- A registry with one track, whose handle is kept. -/
private def single : Registry := (new {}).value.next (.getOrCreate ⟨"a"⟩)

/-- The track is used by name and through its handle. -/
private def shared : List Request := [.forward ⟨"a"⟩ ⟨1, 10, 0, [1], 0⟩, .via ⟨0⟩ (.inject 2)]

/-- The track is created again, and the handle is still used. -/
private def recreated : List Request :=
  [.forward ⟨"a"⟩ ⟨1, 500, 0, [1], 0⟩, .via ⟨0⟩ (.forward ⟨1, 11, 0, [1], 0⟩), .restart ⟨"a"⟩]

theorem handle_names_numbering_recreated :
    (((new {}).value.after []).serve (.getOrCreate ⟨"a"⟩)).value = (single, .handle (.ok ⟨0⟩)) ∧
      ¬single.Removes ⟨"a"⟩ shared ∧
      single.Removes ⟨"a"⟩ (shared ++ [.remove ⟨"a"⟩]) ∧
      single.Shares ⟨"a"⟩ ⟨0⟩ (.new 100) shared ∧
      ((single.after shared).next (.remove ⟨"a"⟩)).Detached ⟨0⟩
        ((Numbering.new 100).after [.forward ⟨1, 10, 0, [1], 0⟩, .inject 2]) recreated := by
  have hopen : (((new {}).value.after []).serve (.getOrCreate ⟨"a"⟩)).value =
      (single, .handle (.ok ⟨0⟩)) := rfl
  have hkept : ¬single.Removes ⟨"a"⟩ shared := fun h => absurd h.mem (by decide)
  obtain ⟨-, hwhile⟩ := handle_names_numbering {} [] hopen shared
  obtain ⟨-, hshares, -, hdetached⟩ := hwhile hkept
  -- the track comes back under another handle, so it was removed
  obtain ⟨hidentity, -⟩ := handle_names_numbering {} [] hopen (shared ++ [.remove ⟨"a"⟩])
  have hgone : single.Removes ⟨"a"⟩ (shared ++ [.remove ⟨"a"⟩]) := by
    by_contra hstill
    have hsame : (⟨1⟩ : Handle) = ⟨0⟩ := (hidentity rfl).mpr ⟨rfl, hstill⟩
    exact absurd hsame (by decide)
  exact ⟨hopen, hkept, hgone, hshares, hdetached recreated⟩

end Renumber.Registry
