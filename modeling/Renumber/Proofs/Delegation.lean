import Renumber.Proofs.Alarm
import Renumber.Registry.Request

/-! A registry passes requests on to its numberings. In a run of the registry each numbering fares
as it would alone, with the requests that were passed on to it. -/
namespace Renumber.Registry

open Traced

/-- The numbering that a handle names. A handle yet to be given out reads as a new one. -/
def numbering (r : Registry) (h : Handle) : Numbering :=
  (r.get? h).getD (.new r.settings.sequenceHistory.toNat)

/-- The request that is passed on to a numbering, and the handle that names it. -/
def passedOn (r : Registry) : Request → Option (Handle × Numbering.Request)
  | .forward track p => (r.getOrCreate track).value.2.toOption.map (·, .forward p)
  | .restart track => (r.find? track).map (·, .restart)
  | .via h request => if (r.get? h).isSome then some (h, request) else none
  | .getOrCreate _ => none
  | .remove _ => none

/-- What a request asks of one numbering, if anything. -/
def asked (r : Registry) (h : Handle) (request : Request) : List Numbering.Request :=
  ((r.passedOn request).filter (·.1 = h)).toList.map Prod.snd

/-- The registry after a request. -/
def next (r : Registry) (request : Request) : Registry := (r.serve request).value.1

def after (r : Registry) (requests : List Request) : Registry := (r.serveAll requests).value.1

/-- All that a run of the registry asks of one numbering. -/
def calls (r : Registry) (h : Handle) : List Request → List Numbering.Request
  | [] => []
  | request :: rest => r.asked h request ++ (r.next request).calls h rest

/-- Every tracked track has its numbering. -/
def Sound (r : Registry) : Prop := ∀ entry ∈ r.tracks, entry.2.index < r.numberings.length

variable {r : Registry} {track : TrackId} {h h' : Handle} {n : Numbering}

theorem asked_of_none {request : Request} (hp : r.passedOn request = none) :
    r.asked h request = [] := by
  rw [asked, hp]
  rfl

theorem asked_of_some {request : Request} {q : Numbering.Request}
    (hp : r.passedOn request = some (h', q)) : r.asked h request = if h' = h then [q] else [] := by
  rw [asked, hp, Option.filter_some]
  by_cases heq : h' = h <;> simp [heq]

theorem calls_length_le (r : Registry) (h : Handle) (requests : List Request) :
    (r.calls h requests).length ≤ requests.length := by
  induction requests generalizing r with
  | nil => exact Nat.le_refl 0
  | cons request rest ih =>
    have hfirst : (r.asked h request).length ≤ 1 := by
      rw [asked, List.length_map]
      exact Option.length_toList_le
    have hrest := ih (r.next request)
    rw [calls, List.length_append, List.length_cons]
    omega

theorem numbering_of_get? (hn : r.get? h = some n) : r.numbering h = n := by
  rw [numbering, hn]
  rfl

theorem get?_of_lt (hlt : h.index < r.numberings.length) : r.get? h = some (r.numbering h) := by
  have hget : r.get? h = some r.numberings[h.index] := List.getElem?_eq_getElem hlt
  rw [hget, numbering_of_get? hget]

theorem index_ne (hne : h ≠ h') : h.index ≠ h'.index := by
  intro hindex
  cases h
  cases h'
  cases hindex
  exact hne rfl

theorem numbering_set (hlt : h.index < r.numberings.length) (n : Numbering) (h' : Handle) :
    (r.set h n).numbering h' = if h = h' then n else r.numbering h' := by
  simp only [numbering, get?, set, List.getElem?_set, if_pos hlt]
  by_cases heq : h = h'
  · simp [heq]
  · simp [heq, index_ne heq]

/-- A new numbering is the one that its handle was read as before. -/
theorem numbering_create (r : Registry) (track : TrackId) (h : Handle) :
    (r.create track).1.numbering h = r.numbering h := by
  simp only [numbering, get?, create, List.getElem?_append]
  split
  · rfl
  next hlt =>
    rw [List.getElem?_eq_none (by omega : r.numberings.length ≤ h.index), List.getElem?_singleton]
    split <;> rfl

namespace Sound

theorem new (settings : Settings) : (Registry.new settings).value.Sound :=
  fun _ hentry => absurd hentry List.not_mem_nil

theorem lt_of_find? (hs : r.Sound) (hfind : r.find? track = some h) :
    h.index < r.numberings.length := by
  obtain ⟨earlier, later, heq, -⟩ := List.lookup_eq_some_iff.mp hfind
  exact hs (track, h) (by rw [heq]; simp)

theorem set (hs : r.Sound) (h : Handle) (n : Numbering) : (r.set h n).Sound := by
  intro entry hentry
  rw [Registry.set, List.length_set]
  exact hs entry hentry

theorem create (hs : r.Sound) (track : TrackId) : (r.create track).1.Sound := by
  intro entry hentry
  simp only [Registry.create, List.mem_append, List.mem_singleton, List.length_append,
    List.length_singleton] at hentry ⊢
  rcases hentry with hentry | rfl
  · exact Nat.lt_succ_of_lt (hs entry hentry)
  · exact Nat.lt_succ_self _

theorem remove (hs : r.Sound) (track : TrackId) : (r.remove track).value.1.Sound := by
  unfold Registry.remove
  split
  · exact hs
  · exact fun entry hentry => hs entry (List.mem_filter.mp hentry).1

end Sound

/-- A track is found, or created anew, with its numbering. No numbering changes. -/
structure Opens (r : Registry) (track : TrackId) (opened : Registry × Except RegistryError Handle) :
    Prop where
  sound : opened.1.Sound
  numbering : ∀ h, opened.1.numbering h = r.numbering h
  named : ∀ h, opened.2 = .ok h → h.index < opened.1.numberings.length

theorem Sound.opens (hs : r.Sound) (track : TrackId) :
    Opens r track (r.getOrCreate track).value := by
  unfold getOrCreate
  split
  · next h hfind =>
    refine ⟨hs, fun _ => rfl, fun h' hh => ?_⟩
    cases hh
    exact hs.lt_of_find? hfind
  split
  · refine ⟨hs, fun _ => rfl, fun h' hh => ?_⟩
    cases hh
  · refine ⟨hs.create track, r.numbering_create track, fun h' hh => ?_⟩
    cases hh
    simp [Registry.create]

theorem calm_new (settings : Settings) : (new settings).Calm := (calm_report id).bind (calm_pure _)

theorem calm_getOrCreate (r : Registry) (track : TrackId) : (r.getOrCreate track).Calm := by
  unfold getOrCreate
  split
  · exact calm_pure _
  split
  · exact (calm_report id).bind (calm_pure _)
  · exact (calm_report id).bind (calm_pure _)

theorem calm_remove (r : Registry) (track : TrackId) : (r.remove track).Calm := by
  unfold remove
  split
  · exact calm_pure _
  · exact (calm_report id).bind (calm_pure _)

theorem via_of_lt {α : Type} (hlt : h.index < r.numberings.length)
    (op : Numbering → Traced (Numbering × α)) :
    r.via h op = (fun (n, a) => (r.set h n, some a)) <$> op (r.numbering h) := by
  rw [via, get?_of_lt hlt]

/-- One request to the registry: each numbering serves what is asked of it, and alarms come from
there alone. -/
structure Delegates (r : Registry) (request : Request) : Prop where
  sound : (r.next request).Sound
  numbering : ∀ h, (r.next request).numbering h = (r.numbering h).after (r.asked h request)
  calm : (∀ h, ∀ x ∈ (r.numbering h).exchanges (r.asked h request), x.reply.Consistent) →
    (r.serve request).Calm

theorem Delegates.of_none {request : Request} (hp : r.passedOn request = none)
    (hsound : (r.next request).Sound)
    (hnumbering : ∀ h, (r.next request).numbering h = r.numbering h)
    (hcalm : (r.serve request).Calm) : Delegates r request where
  sound := hsound
  numbering h' := by
    rw [asked_of_none hp]
    exact hnumbering h'
  calm _ := hcalm

theorem Delegates.of_some {request : Request} {q : Numbering.Request} {opened : Registry}
    (hp : r.passedOn request = some (h, q)) (hs : opened.Sound)
    (hsame : ∀ h', opened.numbering h' = r.numbering h') (hlt : h.index < opened.numberings.length)
    (hnext : r.next request = opened.set h (Numbering.Exchange.after ⟨r.numbering h, q⟩))
    (hcalm : (Numbering.Exchange.reply ⟨r.numbering h, q⟩).Consistent → (r.serve request).Calm) :
    Delegates r request where
  sound := by
    rw [hnext]
    exact hs.set h _
  numbering h' := by
    rw [hnext, numbering_set hlt, hsame, asked_of_some hp]
    split
    · next heq =>
      subst heq
      rfl
    · rfl
  calm hall := by
    refine hcalm (hall h _ ?_)
    -- the handle's own numbering is the one that is asked
    rw [asked_of_some hp, if_pos rfl]
    exact List.mem_singleton_self _

namespace Sound

theorem delegates_forward (hs : r.Sound) (track : TrackId) (p : Packet) :
    Delegates r (.forward track p) := by
  have hopens := hs.opens track
  have hquiet := r.calm_getOrCreate track
  rcases hopen : (r.getOrCreate track).value with ⟨opened, error | h⟩
  · rw [hopen] at hopens
    have hnext : r.next (.forward track p) = opened := by
      simp only [next, serve, forward, value_map, value_bind, hopen, value_pure]
    refine .of_none ?_ ?_ ?_ ?_
    · simp only [passedOn, hopen]
      rfl
    · rw [hnext]
      exact hopens.sound
    · rw [hnext]
      exact hopens.numbering
    · refine calm_map_iff.mpr (hquiet.bind ?_)
      rw [hopen]
      exact calm_pure _
  · rw [hopen] at hopens
    have hlt := hopens.named h rfl
    have hvia := via_of_lt hlt (·.forward p)
    rw [hopens.numbering] at hvia
    refine .of_some (h := h) (q := .forward p) ?_ hopens.sound hopens.numbering hlt ?_
      fun hcons => ?_
    · simp only [passedOn, hopen]
      rfl
    · simp only [next, serve, forward, value_map, value_bind, hopen, hvia]
      split <;> rfl
    · have hcalm : ((r.numbering h).forward p).Calm :=
        calm_map_iff.mp (Numbering.Exchange.calm _ hcons)
      refine calm_map_iff.mpr (hquiet.bind ?_)
      simp only [hopen, hvia]
      refine (calm_map_iff.mpr hcalm).bind ?_
      simp only [value_map]
      split
      · next cause hanswer => exact absurd hanswer (hcons cause)
      · exact (calm_pure _).bind (calm_pure _)

theorem delegates_via (hs : r.Sound) (h : Handle) (request : Numbering.Request) :
    Delegates r (.via h request) := by
  by_cases hlt : h.index < r.numberings.length
  · have hvia := via_of_lt hlt (·.serve request)
    refine .of_some (h := h) (q := request) ?_ hs (fun _ => rfl) hlt ?_ fun hcons => ?_
    · rw [passedOn, get?_of_lt hlt]
      rfl
    · rw [next, serve, hvia]
      rfl
    · rw [serve, hvia]
      exact calm_map_iff.mpr (calm_map_iff.mpr (Numbering.Exchange.calm _ hcons))
  · have hget : r.get? h = none := List.getElem?_eq_none (Nat.le_of_not_lt hlt)
    have hvia : r.via h (·.serve request) = pure (r, none) := by
      rw [via, hget]
    refine .of_none ?_ ?_ ?_ ?_
    · rw [passedOn, hget]
      rfl
    · rw [next, serve, hvia]
      exact hs
    · rw [next, serve, hvia]
      exact fun _ => rfl
    · rw [serve, hvia]
      exact calm_map_iff.mpr (calm_pure _)

theorem delegates_restart (hs : r.Sound) (track : TrackId) : Delegates r (.restart track) := by
  cases hfind : r.find? track with
  | none =>
    have hserve : r.serve (.restart track) = pure (r, .restarted (.error .unknownTrack)) := by
      rw [serve, Registry.restart, hfind]
      rfl
    refine .of_none ?_ ?_ ?_ ?_
    · rw [passedOn, hfind]
      rfl
    · rw [next, hserve]
      exact hs
    · rw [next, hserve]
      exact fun _ => rfl
    · rw [hserve]
      exact calm_pure _
  | some h =>
    have hlt := hs.lt_of_find? hfind
    have hvia := via_of_lt hlt fun n => (·, ()) <$> n.restart
    refine .of_some (h := h) (q := .restart) ?_ hs (fun _ => rfl) hlt ?_ fun hcons => ?_
    · rw [passedOn, hfind]
      rfl
    · rw [next, serve, Registry.restart, hfind]
      simp only [hvia]
      rfl
    · rw [serve, Registry.restart, hfind]
      simp only [hvia]
      refine calm_map_iff.mpr (Calm.bind ?_ ((calm_report id).bind (calm_pure _)))
      exact calm_map_iff.mpr (calm_map_iff.mpr ((calm_report id).bind (calm_pure _)))

theorem delegates (hs : r.Sound) (request : Request) : Delegates r request := by
  cases request with
  | getOrCreate track =>
    have hopens := hs.opens track
    exact .of_none rfl hopens.sound hopens.numbering (calm_map_iff.mpr (r.calm_getOrCreate track))
  | forward track p => exact hs.delegates_forward track p
  | restart track => exact hs.delegates_restart track
  | remove track =>
    refine .of_none rfl (hs.remove track) ?_ (calm_map_iff.mpr (r.calm_remove track))
    intro h
    simp only [next, serve, value_map, Registry.remove]
    split <;> rfl
  | via h request => exact hs.delegates_via h request

end Sound

/-- A numbering after a run of the registry is what the requests passed on to it make of it. -/
theorem numbering_after (hs : r.Sound) (h : Handle) (requests : List Request) :
    (r.after requests).numbering h = (r.numbering h).after (r.calls h requests) := by
  induction requests generalizing r with
  | nil => rfl
  | cons request rest ih =>
    have hstep := hs.delegates request
    rw [calls, Numbering.after_append, ← hstep.numbering]
    exact ih hstep.sound

theorem calm_serveAll (hs : r.Sound) (requests : List Request)
    (hall : ∀ h, ∀ x ∈ (r.numbering h).exchanges (r.calls h requests), x.reply.Consistent) :
    (r.serveAll requests).Calm := by
  induction requests generalizing r with
  | nil => exact calm_pure _
  | cons request rest ih =>
    have hstep := hs.delegates request
    have hsplit : ∀ h, (r.numbering h).exchanges (r.calls h (request :: rest)) =
        (r.numbering h).exchanges (r.asked h request) ++
          ((r.next request).numbering h).exchanges ((r.next request).calls h rest) := by
      intro h
      rw [calls, Numbering.exchanges_append, ← hstep.numbering]
    simp only [hsplit, List.mem_append] at hall
    have hfirst := hstep.calm fun h x hx => hall h x (Or.inl hx)
    have hrest := ih hstep.sound fun h x hx => hall h x (Or.inr hx)
    exact hfirst.bind (hrest.bind (calm_pure _))

end Renumber.Registry
