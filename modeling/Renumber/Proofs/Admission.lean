import Mathlib.Tactic.Tauto
import Renumber.Proofs.Handles

/-! Which tracks a registry admits. A track is turned away only for want of room, and a request that
is turned away changes nothing. -/
namespace Renumber.Registry

open Traced

/-- The track that is found, or created if need be. -/
def Request.opens : Request → Option TrackId
  | .getOrCreate track => some track
  | .forward track _ => some track
  | _ => none

/-- The registry has nothing to serve the request with. -/
def Reply.isRefusal : Reply → Bool
  | .handle (.error _) => true
  | .forwarded (.error _) => true
  | .restarted (.error _) => true
  | .removed wasTracked => !wasTracked
  | .via answer => answer.isNone
  | _ => false

/-- The track is not tracked, and the request opens it. -/
def Creates (r : Registry) (track : TrackId) (request : Request) : Prop :=
  track ∉ r.trackIds ∧ request.opens = some track ∧ (r.serve request).value.2.isRefusal = false

/-- There are no more tracks than the limit allows, if there is one. -/
def Limited (r : Registry) : Prop :=
  0 < r.settings.maxStreams → r.size ≤ r.settings.maxStreams.toNat

variable {r : Registry} {track : TrackId} {request : Request} {requests : List Request}

/-- What a request comes to: it is refused, adds or removes a track, or leaves the tracks alone. -/
inductive Verdict (r : Registry) (request : Request) : Prop
  | refused (next : r.next request = r)
      (reply : (r.serve request).value.2.isRefusal = true)
  | created (track : TrackId) (opens : request.opens = some track) (fresh : r.find? track = none)
      (room : r.isFull = false) (settings : (r.next request).settings = r.settings)
      (tracks : (r.next request).tracks = r.tracks ++ [(track, ⟨r.numberings.length⟩)])
      (reply : (r.serve request).value.2.isRefusal = false)
  | removed (track : TrackId) (asked : request = .remove track)
      (settings : (r.next request).settings = r.settings)
      (tracks : (r.next request).tracks = r.tracks.filter (·.1 != track))
      (reply : (r.serve request).value.2 = .removed true)
  | served (found : ∀ track, request.opens = some track → (r.find? track).isSome)
      (kept : ∀ track, request ≠ .remove track)
      (settings : (r.next request).settings = r.settings)
      (tracks : (r.next request).tracks = r.tracks)
      (reply : (r.serve request).value.2.isRefusal = false)

theorem isFull_iff : r.isFull = true ↔
    0 < r.settings.maxStreams ∧ r.settings.maxStreams.toNat ≤ r.size := by
  rw [isFull, Bool.and_eq_true, decide_eq_true_eq, decide_eq_true_eq]

theorem mem_trackIds_iff : track ∈ r.trackIds ↔ (r.find? track).isSome := by
  rw [trackIds, List.mem_mergeSort, ← Option.ne_none_iff_isSome, ne_eq, find?_eq_none_iff]
  simp

theorem notMem_trackIds_iff : track ∉ r.trackIds ↔ r.find? track = none := by
  rw [mem_trackIds_iff, Bool.not_eq_true, Option.isSome_eq_false_iff, Option.isNone_iff_eq_none]

theorem length_trackIds (r : Registry) : r.trackIds.length = r.size := by
  rw [trackIds, List.length_mergeSort, List.length_map, size]

theorem Orderly.nodup_trackIds (hr : r.Orderly) : r.trackIds.Nodup := by
  rw [trackIds, (List.mergeSort_perm _ _).nodup_iff, List.Nodup, List.pairwise_map]
  exact hr.pairwise.imp fun hab => hab.1

/-! ### Errors -/

theorem getOrCreate_eq_error_iff {e : RegistryError} :
    (r.getOrCreate track).value.2 = .error e ↔
      e = .limitReached ∧ r.find? track = none ∧ r.isFull = true := by
  rw [value_getOrCreate]
  cases r.find? track with
  | some h => simp
  | none =>
    cases r.isFull with
    | true => simp [eq_comm]
    | false => simp

theorem Sound.forward_eq_error_iff (hs : r.Sound) (p : Packet) {e : RegistryError} :
    (r.forward track p).value.2 = .error e ↔ (r.getOrCreate track).value.2 = .error e := by
  have hopens := hs.opens track
  rcases hopen : (r.getOrCreate track).value with ⟨opened, e' | h⟩
  · rw [value_forward_of_error p hopen]
    simp
  · rw [hopen] at hopens
    rw [value_forward_of_ok p hopen (hopens.named h rfl)]
    simp

theorem Sound.restart_eq_error_iff (hs : r.Sound) {e : RegistryError} :
    (r.restart track).value.2 = .error e ↔ e = .unknownTrack ∧ r.find? track = none := by
  rw [value_restart hs]
  cases r.find? track with
  | some h => simp
  | none => simp [eq_comm]

/-! ### One request -/

/-- A request that opens a track is refused if the track is, and else acts on its numbering only. -/
theorem verdict_of_opens (hopens : request.opens = some track)
    (hkept : ∀ track', request ≠ .remove track')
    (herror : ∀ {opened e}, (r.getOrCreate track).value = (opened, .error e) →
      r.next request = opened ∧ (r.serve request).value.2.isRefusal = true)
    (hok : ∀ {opened h}, (r.getOrCreate track).value = (opened, .ok h) →
      (r.next request).settings = opened.settings ∧ (r.next request).tracks = opened.tracks ∧
        (r.serve request).value.2.isRefusal = false) : Verdict r request := by
  rcases hopen : (r.getOrCreate track).value with ⟨opened, e | h⟩
  · obtain ⟨hnext, hreply⟩ := herror hopen
    obtain ⟨rfl, -⟩ := opened_of_error hopen
    exact .refused hnext hreply
  · obtain ⟨hsettings, htracks, hreply⟩ := hok hopen
    rcases opened_cases hopen with ⟨hfind, rfl⟩ | ⟨hnone, hroom, rfl, -⟩
    · refine .served (fun track' hopens' => ?_) hkept hsettings htracks hreply
      obtain rfl := Option.some.inj (hopens.symm.trans hopens')
      rw [hfind]
      rfl
    · exact .created track hopens hnone hroom hsettings htracks hreply

theorem verdict_of_refused {reply : Reply} (hserve : (r.serve request).value = (r, reply))
    (hreply : reply.isRefusal = true) : Verdict r request := by
  refine .refused ?_ ?_
  · rw [next, hserve]
  · rwa [hserve]

theorem verdict_of_served {served : Registry} {reply : Reply} (hopens : request.opens = none)
    (hkept : ∀ track, request ≠ .remove track) (hserve : (r.serve request).value = (served, reply))
    (hsettings : served.settings = r.settings) (htracks : served.tracks = r.tracks)
    (hreply : reply.isRefusal = false) : Verdict r request := by
  refine .served (fun track htrack => ?_) hkept ?_ ?_ ?_
  · rw [hopens] at htrack
    cases htrack
  · rwa [next, hserve]
  · rwa [next, hserve]
  · rwa [hserve]

theorem Sound.verdict (hs : r.Sound) (request : Request) : Verdict r request := by
  cases request with
  | getOrCreate track =>
    have hserve : (r.serve (.getOrCreate track)).value =
        ((r.getOrCreate track).value.1, .handle (r.getOrCreate track).value.2) := rfl
    refine verdict_of_opens rfl (fun _ heq => by cases heq) (fun hopen => ?_) (fun hopen => ?_)
    · rw [next, hserve, hopen]
      exact ⟨rfl, rfl⟩
    · rw [next, hserve, hopen]
      exact ⟨rfl, rfl, rfl⟩
  | forward track p =>
    have hserve : (r.serve (.forward track p)).value =
        ((r.forward track p).value.1, .forwarded (r.forward track p).value.2) := rfl
    have hopens := hs.opens track
    refine verdict_of_opens rfl (fun _ heq => by cases heq) (fun hopen => ?_)
      (fun {opened h} hopen => ?_)
    · rw [next, hserve, value_forward_of_error p hopen]
      exact ⟨rfl, rfl⟩
    · rw [hopen] at hopens
      rw [next, hserve, value_forward_of_ok p hopen (hopens.named h rfl)]
      exact ⟨rfl, rfl, rfl⟩
  | restart track =>
    have hserve : (r.serve (.restart track)).value =
        ((r.restart track).value.1, .restarted (r.restart track).value.2) := rfl
    rw [value_restart hs] at hserve
    cases hfind : r.find? track with
    | some h =>
      rw [hfind] at hserve
      exact verdict_of_served rfl (fun _ heq => by cases heq) hserve rfl rfl rfl
    | none =>
      rw [hfind] at hserve
      exact verdict_of_refused hserve rfl
  | remove track =>
    have hserve : (r.serve (.remove track)).value =
        ((r.remove track).value.1, .removed (r.remove track).value.2) := rfl
    rw [value_remove] at hserve
    cases hfind : r.find? track with
    | some h =>
      rw [hfind] at hserve
      have hnext : r.next (.remove track) = _ := congrArg Prod.fst hserve
      have hreply := congrArg Prod.snd hserve
      exact .removed track rfl (by rw [hnext]) (by rw [hnext]) hreply
    | none =>
      rw [hfind] at hserve
      exact verdict_of_refused hserve rfl
  | via h request =>
    have hserve : (r.serve (.via h request)).value =
        ((r.via h (·.serve request)).value.1, .via (r.via h (·.serve request)).value.2) := rfl
    cases hget : r.get? h with
    | some n =>
      rw [via, hget] at hserve
      exact verdict_of_served rfl (fun _ heq => by cases heq) hserve rfl rfl rfl
    | none =>
      rw [via, hget] at hserve
      exact verdict_of_refused hserve rfl

theorem Sound.next_of_isRefusal (hs : r.Sound)
    (hrefused : (r.serve request).value.2.isRefusal = true) : r.next request = r := by
  cases hs.verdict request with
  | refused next => exact next
  | created _ _ _ _ _ _ reply =>
    rw [reply] at hrefused
    cases hrefused
  | removed _ _ _ _ reply =>
    rw [reply] at hrefused
    cases hrefused
  | served _ _ _ _ reply =>
    rw [reply] at hrefused
    cases hrefused

theorem Sound.settings_next (hs : r.Sound) (request : Request) :
    (r.next request).settings = r.settings := by
  cases hs.verdict request with
  | refused next => rw [next]
  | created _ _ _ _ settings => exact settings
  | removed _ _ settings => exact settings
  | served _ _ settings => exact settings

theorem Sound.limited_next (hs : r.Sound) (hlimited : r.Limited) (request : Request) :
    (r.next request).Limited := by
  intro hpos
  rw [hs.settings_next] at hpos ⊢
  have hsize : r.tracks.length ≤ r.settings.maxStreams.toNat := hlimited hpos
  cases hs.verdict request with
  | refused next => rwa [next]
  | created track _ _ room _ tracks =>
    -- a track is added only below the limit
    have hbelow : ¬ r.settings.maxStreams.toNat ≤ r.tracks.length := by
      intro hfull
      rw [isFull_iff.mpr ⟨hpos, hfull⟩] at room
      cases room
    rw [size, tracks, List.length_append, List.length_singleton]
    omega
  | removed track _ _ tracks =>
    rw [size, tracks]
    exact Nat.le_trans (List.length_filter_le ..) hsize
  | served _ _ _ tracks => rwa [size, tracks]

/-- A track is tracked after a request that creates it, and stays so but for its removal. -/
theorem Sound.tracked_next (hs : r.Sound) (track : TrackId) (request : Request) :
    ((r.next request).find? track).isSome ↔ r.Creates track request ∨ (r.find? track).isSome ∧
      (.remove track, .removed true) ≠ (request, (r.serve request).value.2) := by
  have hremoves : (.remove track, .removed true) = (request, (r.serve request).value.2) ↔
      request = .remove track ∧ (r.serve request).value.2 = .removed true := by
    rw [Prod.mk.injEq, eq_comm, eq_comm (a := Reply.removed true)]
  rw [Creates, notMem_trackIds_iff, ne_eq, hremoves]
  cases hs.verdict request with
  | refused next reply =>
    have hreply : (r.serve request).value.2 ≠ .removed true := by
      intro heq
      rw [heq] at reply
      cases reply
    rw [next, reply]
    simp [hreply]
  | created added opens fresh room settings tracks reply =>
    have hasked : request ≠ .remove track := by
      rintro rfl
      cases opens
    rw [find?_of_tracks_append tracks, opens, reply]
    by_cases hsame : track = added
    · subst hsame
      simp [fresh]
    · simp [hsame, hasked, Ne.symm hsame]
  | removed gone asked settings tracks reply =>
    rw [find?_of_tracks_filter tracks, reply, asked]
    by_cases hsame : track = gone
    · simp [hsame, Request.opens]
    · simp [hsame, Ne.symm hsame, Request.opens]
  | served found kept settings tracks reply =>
    rw [find?_eq_of_tracks tracks]
    constructor
    · exact fun htracked => Or.inr ⟨htracked, fun hremove => kept track hremove.1⟩
    · rintro (⟨-, hopens, -⟩ | ⟨htracked, -⟩)
      · exact found track hopens
      · exact htracked

/-! ### Runs -/

theorem Sound.settings_after (hs : r.Sound) (requests : List Request) :
    (r.after requests).settings = r.settings := by
  induction requests generalizing r with
  | nil => rfl
  | cons request rest ih =>
    exact (ih (hs.delegates request).sound).trans (hs.settings_next request)

theorem Sound.limited_after (hs : r.Sound) (hlimited : r.Limited) (requests : List Request) :
    (r.after requests).Limited := by
  induction requests generalizing r with
  | nil => exact hlimited
  | cons request rest ih => exact ih (hs.delegates request).sound (hs.limited_next hlimited request)

/-- The track is created in the run, and not removed later on. -/
def Keeps (r : Registry) (track : TrackId) (requests : List Request) : Prop :=
  ∃ earlier request later, requests = earlier ++ request :: later ∧
    (r.after earlier).Creates track request ∧
    ¬((r.after earlier).next request).Removes track later

theorem keeps_cons {rest : List Request} : r.Keeps track (request :: rest) ↔
    r.Creates track request ∧ ¬(r.next request).Removes track rest ∨
      (r.next request).Keeps track rest := by
  constructor
  · rintro ⟨earlier, request', later, hsplit, hcreates, hkept⟩
    cases earlier with
    | nil =>
      obtain ⟨rfl, rfl⟩ := List.cons.inj hsplit
      exact Or.inl ⟨hcreates, hkept⟩
    | cons first earlier =>
      obtain ⟨rfl, rfl⟩ := List.cons.inj hsplit
      exact Or.inr ⟨earlier, request', later, rfl, hcreates, hkept⟩
  · rintro (⟨hcreates, hkept⟩ | ⟨earlier, request', later, rfl, hcreates, hkept⟩)
    · exact ⟨[], request, rest, rfl, hcreates, hkept⟩
    · exact ⟨request :: earlier, request', later, rfl, hcreates, hkept⟩

/-- The tracked tracks are those that were there and not removed, and those created since. -/
theorem Sound.tracked_after (hs : r.Sound) (track : TrackId) (requests : List Request) :
    ((r.after requests).find? track).isSome ↔
      (r.find? track).isSome ∧ ¬r.Removes track requests ∨ r.Keeps track requests := by
  induction requests generalizing r with
  | nil =>
    have hremoves : ¬r.Removes track [] := List.not_mem_nil
    have hkeeps : ¬r.Keeps track [] := by
      rintro ⟨earlier, request, later, hsplit, -⟩
      cases earlier <;> cases hsplit
    simp only [hremoves, hkeeps, not_false_eq_true, and_true, or_false]
    rfl
  | cons request rest ih =>
    have hnext := hs.tracked_next track request
    have hrest := ih (hs.delegates request).sound
    rw [hnext] at hrest
    have hremoves : r.Removes track (request :: rest) ↔
        (.remove track, .removed true) = (request, (r.serve request).value.2) ∨
          (r.next request).Removes track rest := List.mem_cons
    rw [keeps_cons, hremoves]
    refine hrest.trans ?_
    tauto

/-- There is room for a new track as long as the limit is not reached, and the tracks are those that
were created since they were removed last. Who is turned away finds all as it was. -/
theorem limit_exact (settings : Settings) (requests : List Request) :
    let start := (new settings).value
    let r := start.after requests
    (0 < settings.maxStreams → r.size ≤ settings.maxStreams.toNat) ∧
      (∀ track e,
        let turnedAway := e = .limitReached ∧ track ∉ r.trackIds ∧ 0 < settings.maxStreams ∧
          settings.maxStreams.toNat ≤ r.size
        ((r.serve (.getOrCreate track)).value.2 = .handle (.error e) ↔ turnedAway) ∧
          (∀ p, (r.serve (.forward track p)).value.2 = .forwarded (.error e) ↔ turnedAway) ∧
          ((r.serve (.restart track)).value.2 = .restarted (.error e) ↔
            e = .unknownTrack ∧ track ∉ r.trackIds)) ∧
      (∀ request, (r.serve request).value.2.isRefusal = true → r.next request = r) ∧
      r.trackIds.Nodup ∧ r.trackIds.length = r.size ∧
      ∀ track, track ∈ r.trackIds ↔ start.Keeps track requests := by
  intro start r
  have hstart : start.Orderly := .new settings
  have hr : r.Orderly := hstart.after requests
  have hsettings : r.settings = settings := hstart.sound.settings_after requests
  have hlimited : r.Limited := hstart.sound.limited_after (fun _ => Nat.zero_le _) requests
  rw [Limited, hsettings] at hlimited
  refine ⟨hlimited, fun track e => ?_, fun _ => hr.sound.next_of_isRefusal, hr.nodup_trackIds,
    r.length_trackIds, fun track => ?_⟩
  · intro turnedAway
    have hopen : (r.getOrCreate track).value.2 = .error e ↔ turnedAway := by
      rw [getOrCreate_eq_error_iff, isFull_iff, hsettings, ← notMem_trackIds_iff]
    have hhandle : (r.serve (.getOrCreate track)).value.2 =
        .handle (r.getOrCreate track).value.2 := rfl
    have hforwarded : ∀ p, (r.serve (.forward track p)).value.2 =
        .forwarded (r.forward track p).value.2 := fun _ => rfl
    have hrestarted : (r.serve (.restart track)).value.2 =
        .restarted (r.restart track).value.2 := rfl
    refine ⟨?_, fun p => ?_, ?_⟩
    · rw [hhandle, Reply.handle.injEq, hopen]
    · rw [hforwarded, Reply.forwarded.injEq, hr.sound.forward_eq_error_iff, hopen]
    · rw [hrestarted, Reply.restarted.injEq, hr.sound.restart_eq_error_iff, notMem_trackIds_iff]
  · have hnone : ¬(start.find? track).isSome := Bool.false_ne_true
    rw [mem_trackIds_iff, hstart.sound.tracked_after track requests]
    simp [hnone]

/-- Two tracks fill the registry, one is removed, and another one takes its place. -/
private def crowded : List Request :=
  [.getOrCreate ⟨"a"⟩, .forward ⟨"b"⟩ ⟨1, 10, 0, [1], 0⟩, .forward ⟨"c"⟩ ⟨2, 20, 0, [1], 0⟩,
    .remove ⟨"a"⟩, .via ⟨0⟩ (.inject 2), .forward ⟨"c"⟩ ⟨2, 20, 0, [1], 0⟩]

theorem limit_exact_crowded :
    let start := (new { maxStreams := 2 }).value
    let r := start.after crowded
    r.size ≤ 2 ∧ (r.serve (.getOrCreate ⟨"a"⟩)).value.2 = .handle (.error .limitReached) ∧
      r.next (.getOrCreate ⟨"a"⟩) = r ∧ ⟨"c"⟩ ∈ r.trackIds ∧ start.Keeps ⟨"c"⟩ crowded := by
  obtain ⟨hsize, herrors, hunchanged, -, -, hcreated⟩ := limit_exact { maxStreams := 2 } crowded
  obtain ⟨hopen, -⟩ := herrors ⟨"a"⟩ .limitReached
  have hrefused := hopen.mpr ⟨rfl, notMem_trackIds_iff.mpr (by decide), by decide, by decide⟩
  have hsame := hunchanged (.getOrCreate ⟨"a"⟩) (by rw [hrefused]; rfl)
  have htracked : ⟨"c"⟩ ∈ ((new { maxStreams := 2 }).value.after crowded).trackIds :=
    mem_trackIds_iff.mpr (by decide)
  exact ⟨hsize (by decide), hrefused, hsame, htracked, (hcreated ⟨"c"⟩).mp htracked⟩

end Renumber.Registry
