import Mathlib.Data.List.Pairwise
import Renumber.Proofs.Delegation

/-! Which tracks a registry tracks and under which handles, and how requests change that. -/
namespace Renumber.Registry

open Traced

variable {r : Registry} {track : TrackId} {h : Handle}

theorem value_getOrCreate (r : Registry) (track : TrackId) :
    (r.getOrCreate track).value = match r.find? track with
      | some h => (r, .ok h)
      | none => if r.isFull then (r, .error .limitReached)
        else ((r.create track).1, .ok ⟨r.numberings.length⟩) := by
  unfold getOrCreate
  cases r.find? track with
  | some h => rfl
  | none => cases r.isFull <;> rfl

theorem settings_getOrCreate (r : Registry) (track : TrackId) :
    (r.getOrCreate track).value.1.settings = r.settings := by
  rw [value_getOrCreate]
  cases r.find? track with
  | some h => rfl
  | none => cases r.isFull <;> rfl

theorem length_le_getOrCreate (r : Registry) (track : TrackId) :
    r.numberings.length ≤ (r.getOrCreate track).value.1.numberings.length := by
  rw [value_getOrCreate]
  cases r.find? track with
  | some used => exact Nat.le_refl _
  | none =>
    cases r.isFull with
    | true => exact Nat.le_refl _
    | false => simp [create]

/-- A track that is opened is tracked already or created. -/
theorem opened_cases {opened : Registry}
    (hopen : (r.getOrCreate track).value = (opened, .ok h)) :
    (r.find? track = some h ∧ opened = r) ∨
      (r.find? track = none ∧ r.isFull = false ∧ opened = (r.create track).1 ∧
        h = ⟨r.numberings.length⟩) := by
  rw [value_getOrCreate] at hopen
  cases hfind : r.find? track with
  | some used =>
    rw [hfind] at hopen
    cases hopen
    exact Or.inl ⟨rfl, rfl⟩
  | none =>
    rw [hfind] at hopen
    cases hfull : r.isFull with
    | true =>
      rw [hfull] at hopen
      cases hopen
    | false =>
      rw [hfull] at hopen
      cases hopen
      exact Or.inr ⟨rfl, rfl, rfl, rfl⟩

/-- A track that is not opened is a new one beyond the limit. -/
theorem opened_of_error {opened : Registry} {e : RegistryError}
    (hopen : (r.getOrCreate track).value = (opened, .error e)) :
    opened = r ∧ e = .limitReached ∧ r.find? track = none ∧ r.isFull = true := by
  rw [value_getOrCreate] at hopen
  cases hfind : r.find? track with
  | some used =>
    rw [hfind] at hopen
    cases hopen
  | none =>
    rw [hfind] at hopen
    cases hfull : r.isFull with
    | true =>
      rw [hfull] at hopen
      cases hopen
      exact ⟨rfl, rfl, rfl, rfl⟩
    | false =>
      rw [hfull] at hopen
      cases hopen

theorem value_forward_of_error {opened : Registry} {e : RegistryError} (p : Packet)
    (hopen : (r.getOrCreate track).value = (opened, .error e)) :
    (r.forward track p).value = (opened, .error e) := by
  simp only [forward, value_bind, hopen, value_pure]

theorem value_forward_of_ok {opened : Registry} (p : Packet)
    (hopen : (r.getOrCreate track).value = (opened, .ok h))
    (hlt : h.index < opened.numberings.length) :
    (r.forward track p).value = (opened.set h ((opened.numbering h).forward p).value.1,
      .ok ((opened.numbering h).forward p).value.2) := by
  simp only [forward, value_bind, hopen, via_of_lt hlt, value_map]
  split <;> rfl

theorem value_restart (hs : r.Sound) (track : TrackId) :
    (r.restart track).value = match r.find? track with
      | some h => (r.set h (r.numbering h).restart.value, .ok ())
      | none => (r, .error .unknownTrack) := by
  unfold restart
  cases hfind : r.find? track with
  | some h =>
    simp only [via_of_lt (hs.lt_of_find? hfind)]
    rfl
  | none => rfl

theorem value_remove (r : Registry) (track : TrackId) :
    (r.remove track).value = match r.find? track with
      | some _ => ({ r with tracks := r.tracks.filter (·.1 != track) }, true)
      | none => (r, false) := by
  unfold remove
  cases r.find? track <;> rfl

theorem value_via_of_lt (hlt : h.index < r.numberings.length) (request : Numbering.Request) :
    (r.serve (.via h request)).value =
      (r.set h ((r.numbering h).serve request).value.1,
        .via (some ((r.numbering h).serve request).value.2)) := by
  rw [serve, via_of_lt hlt]
  rfl

theorem get?_set_of_ne {h' : Handle} (hne : h ≠ h') (n : Numbering) :
    (r.set h n).get? h' = r.get? h' := by
  rw [get?, get?, set, List.getElem?_set_ne (index_ne hne)]

theorem mem_of_find? (hfind : r.find? track = some h) : (track, h) ∈ r.tracks := by
  obtain ⟨earlier, later, heq, -⟩ := List.lookup_eq_some_iff.mp hfind
  rw [heq]
  simp

theorem find?_eq_none_iff : r.find? track = none ↔ ∀ entry ∈ r.tracks, entry.1 ≠ track := by
  rw [find?, List.lookup_eq_none_iff]
  simp only [bne_iff_ne]
  exact forall₂_congr fun _ _ => ne_comm

theorem lookup_filter_ne (tracks : List (TrackId × Handle)) (track track' : TrackId) :
    (tracks.filter (·.1 != track)).lookup track' =
      if track' = track then none else tracks.lookup track' := by
  induction tracks with
  | nil => simp
  | cons entry rest ih =>
    by_cases heq : entry.1 = track
    · rw [List.filter_cons_of_neg (by simp [heq]), ih]
      by_cases hsame : track' = track
      · rw [if_pos hsame, if_pos hsame]
      · have hne : (track' == entry.1) = false := beq_eq_false_iff_ne.mpr (by rwa [heq])
        rw [if_neg hsame, if_neg hsame, List.lookup_cons, hne]
    · rw [List.filter_cons_of_pos (by simpa using heq), List.lookup_cons, List.lookup_cons, ih]
      by_cases hsame : track' = track
      · have hne : (track' == entry.1) = false :=
          beq_eq_false_iff_ne.mpr fun h => heq (h.symm.trans hsame)
        rw [if_pos hsame, if_pos hsame, hne]
      · rw [if_neg hsame, if_neg hsame]

theorem find?_eq_of_tracks {r' : Registry} (heq : r'.tracks = r.tracks) (track : TrackId) :
    r'.find? track = r.find? track := congrArg (List.lookup track) heq

theorem find?_of_tracks_append {r' : Registry} {added : TrackId} {fresh : Handle}
    (heq : r'.tracks = r.tracks ++ [(added, fresh)]) (track : TrackId) :
    r'.find? track = (r.find? track).or (if track = added then some fresh else none) := by
  rw [find?, heq, List.lookup_append, List.lookup_cons]
  by_cases hsame : track = added
  · rw [if_pos hsame, beq_iff_eq.mpr hsame]
    rfl
  · rw [if_neg hsame, beq_eq_false_iff_ne.mpr hsame]
    rfl

theorem find?_of_tracks_filter {r' : Registry} {gone : TrackId}
    (heq : r'.tracks = r.tracks.filter (·.1 != gone)) (track : TrackId) :
    r'.find? track = if track = gone then none else r.find? track := by
  rw [find?, heq, lookup_filter_ne]
  rfl

/-- What a request does to the tracks: nothing, or it adds or removes one. -/
inductive Turn (r : Registry) (request : Request) : Prop
  | keeps (tracks : (r.next request).tracks = r.tracks)
      (size : (r.next request).numberings.length = r.numberings.length)
      (reply : ∀ track, request = .remove track →
        r.find? track = none ∧ (r.serve request).value.2 = .removed false)
  | creates (track : TrackId) (fresh : r.find? track = none)
      (tracks : (r.next request).tracks = r.tracks ++ [(track, ⟨r.numberings.length⟩)])
      (size : (r.next request).numberings.length = r.numberings.length + 1)
      (reply : ∀ track', request ≠ .remove track')
  | removes (track : TrackId) (asked : request = .remove track)
      (tracks : (r.next request).tracks = r.tracks.filter (·.1 != track))
      (size : (r.next request).numberings.length = r.numberings.length)
      (reply : (r.serve request).value.2 = .removed true)

/-- A track is found or created, and then nothing but numberings change. -/
theorem turn_of_opened {request : Request} (track : TrackId)
    (htracks : (r.next request).tracks = (r.getOrCreate track).value.1.tracks)
    (hsize : (r.next request).numberings.length = (r.getOrCreate track).value.1.numberings.length)
    (hremove : ∀ track', request ≠ .remove track') : Turn r request := by
  rw [value_getOrCreate] at htracks hsize
  cases hfind : r.find? track with
  | some h =>
    rw [hfind] at htracks hsize
    exact .keeps htracks hsize fun track' heq => absurd heq (hremove track')
  | none =>
    rw [hfind] at htracks hsize
    cases hfull : r.isFull with
    | true =>
      rw [hfull] at htracks hsize
      exact .keeps htracks hsize fun track' heq => absurd heq (hremove track')
    | false =>
      rw [hfull] at htracks hsize
      refine .creates track hfind htracks ?_ hremove
      rw [hsize]
      simp [create]

theorem Sound.turn_forward (hs : r.Sound) (track : TrackId) (p : Packet) :
    Turn r (.forward track p) := by
  have hnext : r.next (.forward track p) = (r.forward track p).value.1 := rfl
  have hremove : ∀ track', Request.forward track p ≠ .remove track' := fun _ heq => by cases heq
  rcases hopen : (r.getOrCreate track).value with ⟨opened, e | h⟩
  · rw [value_forward_of_error p hopen] at hnext
    refine turn_of_opened track ?_ ?_ hremove
    · rw [hnext, hopen]
    · rw [hnext, hopen]
  · have hopens := hs.opens track
    rw [hopen] at hopens
    rw [value_forward_of_ok p hopen (hopens.named h rfl)] at hnext
    refine turn_of_opened track ?_ ?_ hremove
    · rw [hnext, hopen]
      rfl
    · rw [hnext, hopen]
      exact List.length_set

theorem Sound.turn_restart (hs : r.Sound) (track : TrackId) : Turn r (.restart track) := by
  have hnext : r.next (.restart track) = (r.restart track).value.1 := rfl
  rw [value_restart hs track] at hnext
  cases hfind : r.find? track with
  | some h =>
    rw [hfind] at hnext
    refine .keeps ?_ ?_ fun _ heq => by cases heq
    · rw [hnext]
      rfl
    · rw [hnext]
      exact List.length_set
  | none =>
    rw [hfind] at hnext
    refine .keeps ?_ ?_ fun _ heq => by cases heq
    · rw [hnext]
    · rw [hnext]

theorem turn_remove (r : Registry) (track : TrackId) : Turn r (.remove track) := by
  have hserve : (r.serve (.remove track)).value =
      ((r.remove track).value.1, .removed (r.remove track).value.2) := rfl
  rw [value_remove] at hserve
  cases hfind : r.find? track with
  | some h =>
    rw [hfind] at hserve
    refine .removes track rfl ?_ ?_ ?_
    · rw [next, hserve]
    · rw [next, hserve]
    · rw [hserve]
  | none =>
    rw [hfind] at hserve
    refine .keeps ?_ ?_ fun track' heq => ?_
    · rw [next, hserve]
    · rw [next, hserve]
    · cases heq
      exact ⟨hfind, congrArg Prod.snd hserve⟩

theorem turn_via (r : Registry) (h : Handle) (request : Numbering.Request) :
    Turn r (.via h request) := by
  have hnext : r.next (.via h request) = (r.via h (·.serve request)).value.1 := rfl
  cases hget : r.get? h with
  | some n =>
    rw [via, hget] at hnext
    refine .keeps ?_ ?_ fun _ heq => by cases heq
    · rw [hnext]
      rfl
    · rw [hnext]
      exact List.length_set
  | none =>
    rw [via, hget] at hnext
    refine .keeps ?_ ?_ fun _ heq => by cases heq
    · rw [hnext]
      rfl
    · rw [hnext]
      rfl

theorem Sound.turn (hs : r.Sound) (request : Request) : Turn r request := by
  cases request with
  | getOrCreate track => exact turn_of_opened track rfl rfl fun _ heq => by cases heq
  | forward track p => exact hs.turn_forward track p
  | restart track => exact hs.turn_restart track
  | remove track => exact r.turn_remove track
  | via h request => exact r.turn_via h request

/-- Each track is there once, under a later handle than the tracks before it. -/
structure Orderly (r : Registry) : Prop where
  sound : r.Sound
  pairwise : r.tracks.Pairwise fun a b => a.1 ≠ b.1 ∧ a.2.index < b.2.index

namespace Orderly

theorem new (settings : Settings) : (Registry.new settings).value.Orderly :=
  ⟨.new settings, List.Pairwise.nil⟩

theorem next (hr : r.Orderly) (request : Request) : (r.next request).Orderly := by
  refine ⟨(hr.sound.delegates request).sound, ?_⟩
  cases hr.sound.turn request with
  | keeps tracks =>
    rw [tracks]
    exact hr.pairwise
  | creates track fresh tracks =>
    rw [tracks, List.pairwise_append]
    refine ⟨hr.pairwise, List.pairwise_singleton _ _, ?_⟩
    intro a ha b hb
    obtain rfl := List.mem_singleton.mp hb
    exact ⟨find?_eq_none_iff.mp fresh a ha, hr.sound a ha⟩
  | removes track _ tracks =>
    rw [tracks]
    exact hr.pairwise.filter _

theorem after (hr : r.Orderly) (requests : List Request) : (r.after requests).Orderly := by
  induction requests generalizing r with
  | nil => exact hr
  | cons request rest ih => exact ih (hr.next request)

theorem opened (hr : r.Orderly) {opened : Registry}
    (hopen : (r.getOrCreate track).value = (opened, .ok h)) :
    opened.Orderly ∧ opened.find? track = some h := by
  refine ⟨?_, ?_⟩
  · have hnext := hr.next (.getOrCreate track)
    rwa [Registry.next, serve, value_map, hopen] at hnext
  · rcases opened_cases hopen with ⟨hfind, rfl⟩ | ⟨hnone, -, rfl, rfl⟩
    · exact hfind
    · rw [find?_of_tracks_append rfl, hnone, if_pos rfl]
      rfl

/-- A handle belongs to one track. -/
theorem track_eq (hr : r.Orderly) {track' : TrackId} (hfind : r.find? track = some h)
    (hfind' : r.find? track' = some h) : track = track' := by
  by_contra hne
  have hapart : r.tracks.Pairwise fun a b => a.2 ≠ b.2 := by
    refine hr.pairwise.imp fun hab heq => ?_
    rw [heq] at hab
    exact Nat.lt_irrefl _ hab.2
  have hsymm : Std.Symm fun a b : TrackId × Handle => a.2 ≠ b.2 := ⟨fun _ _ => Ne.symm⟩
  exact hapart.forall (mem_of_find? hfind) (mem_of_find? hfind')
    (fun heq => hne (congrArg Prod.fst heq)) rfl

end Orderly

/-- Requests with their replies. -/
def transcript (r : Registry) (requests : List Request) : List (Request × Reply) :=
  requests.zip (r.serveAll requests).value.2

theorem transcript_cons (r : Registry) (request : Request) (rest : List Request) :
    r.transcript (request :: rest) =
      (request, (r.serve request).value.2) :: (r.next request).transcript rest := rfl

end Renumber.Registry
