import Renumber.Proofs.Tracking

/-! Tracks are isolated. Each track fares as if it had the registry to itself, but for the limit on
the number of tracks. -/
namespace Renumber.Registry

open Traced

variable {r : Registry} {track : TrackId} {h : Handle} {history : Nat} {full : Bool}

/-- What is asked about one track. -/
inductive TrackRequest where
  | getOrCreate
  | forward (p : Packet)
  | restart
  | remove
  | stats
  deriving DecidableEq, Repr

/-- The reply, without the handle of the track. -/
inductive TrackReply where
  | opened (answer : Except RegistryError Unit)
  | forwarded (answer : Except RegistryError (Except Refusal Packet))
  | restarted (answer : Except RegistryError Unit)
  | removed (wasTracked : Bool)
  | stats (answer : Option Stats)

/-- Serves a request about a track. -/
def perform (r : Registry) (track : TrackId) : TrackRequest → Registry × TrackReply
  | .getOrCreate =>
    (r.getOrCreate track).value.map id fun answer => .opened (answer.map fun _ => ())
  | .forward p => (r.forward track p).value.map id .forwarded
  | .restart => (r.restart track).value.map id .restarted
  | .remove => (r.remove track).value.map id .removed
  | .stats => (r, .stats (r.stats? track))

/-- What is asked of a registry by those who keep no handles. -/
inductive Operation where
  | on (track : TrackId) (request : TrackRequest)
  | size
  | trackIds
  deriving DecidableEq, Repr

inductive Outcome where
  | on (reply : TrackReply)
  | size (tracked : Nat)
  | trackIds (tracked : List TrackId)

def operate (r : Registry) : Operation → Registry × Outcome
  | .on track request => (r.perform track request).map id .on
  | .size => (r, .size r.size)
  | .trackIds => (r, .trackIds r.trackIds)

def operateAll (r : Registry) : List Operation → Registry × List (Operation × Outcome)
  | [] => (r, [])
  | op :: rest =>
    let (r, outcome) := r.operate op
    let (r, outcomes) := r.operateAll rest
    (r, (op, outcome) :: outcomes)

/-- The request about the track, if the operation is one. -/
def Operation.request? (track : TrackId) : Operation → Option TrackRequest
  | .on track' request => if track' = track then some request else none
  | .size => none
  | .trackIds => none

/-- A request about the track with its reply, if the operation is one. -/
def exchange? (track : TrackId) : Operation × Outcome → Option (TrackRequest × TrackReply)
  | (.on track' request, .on reply) => if track' = track then some (request, reply) else none
  | _ => none

/-- The numbering of a track. -/
def own (r : Registry) (track : TrackId) : Option Numbering := (r.find? track).bind r.get?

theorem stats?_eq (r : Registry) (track : TrackId) :
    r.stats? track = (r.own track).map Numbering.stats := by
  rw [stats?, own, Option.map_bind]
  rfl

theorem own_of_find? (hs : r.Sound) (hfind : r.find? track = some h) :
    r.own track = some (r.numbering h) := by
  rw [own, hfind, Option.bind_some, get?_of_lt (hs.lt_of_find? hfind)]

theorem own_of_none (hfind : r.find? track = none) : r.own track = none := by
  rw [own, hfind]
  rfl

theorem Orderly.own_set (hr : r.Orderly) (hfind : r.find? track = some h) (n : Numbering)
    (track' : TrackId) :
    (r.set h n).own track' = if track' = track then some n else r.own track' := by
  have hsame : (r.set h n).find? track' = r.find? track' := rfl
  have hlt := hr.sound.lt_of_find? hfind
  rw [own, own, hsame]
  split
  · next heq =>
    rw [heq, hfind, Option.bind_some, get?, set, List.getElem?_set_self hlt]
  · next hne =>
    cases hfind' : r.find? track' with
    | none => rfl
    | some h' =>
      have hother : h ≠ h' := fun heq => hne (hr.track_eq (heq ▸ hfind') hfind)
      rw [Option.bind_some, Option.bind_some, get?_set_of_ne hother]

theorem Sound.own_create (hs : r.Sound) (hfresh : r.find? track = none) (track' : TrackId) :
    (r.create track).1.own track' =
      if track' = track then some (.new r.settings.sequenceHistory.toNat) else r.own track' := by
  rw [own, find?_of_tracks_append rfl]
  split
  · next heq =>
    rw [heq, hfresh]
    exact List.getElem?_concat_length
  · cases hfind : r.find? track' with
    | none => rw [own_of_none hfind]; rfl
    | some h =>
      rw [own, hfind]
      exact List.getElem?_append_left (hs.lt_of_find? hfind)

theorem own_filter (r : Registry) (track track' : TrackId) :
    ({ r with tracks := r.tracks.filter (·.1 != track) } : Registry).own track' =
      if track' = track then none else r.own track' := by
  rw [own, find?_of_tracks_filter rfl]
  split <;> rfl

/-- A track that is opened has the numbering it had, or a new one. -/
theorem Orderly.own_of_opened (hr : r.Orderly) {opened : Registry}
    (hopen : (r.getOrCreate track).value = (opened, .ok h)) (track' : TrackId) :
    opened.own track' =
      if track' = track then some ((r.own track).getD (.new r.settings.sequenceHistory.toNat))
      else r.own track' := by
  rcases opened_cases hopen with ⟨hfind, rfl⟩ | ⟨hnone, -, rfl, rfl⟩
  · split
    · next heq => rw [heq, own_of_find? hr.sound hfind, Option.getD_some]
    · rfl
  · rw [hr.sound.own_create hnone, own_of_none hnone]
    rfl

/-! ### A track alone -/

/-- Finds the numbering of the only track, or creates it. -/
def openAlone (history : Nat) (full : Bool) : Option Numbering → Except RegistryError Numbering
  | some n => .ok n
  | none => if full then .error .limitReached else .ok (.new history)

/-- Serves a request about the only track. -/
def serveAlone (history : Nat) (full : Bool) (n? : Option Numbering) :
    TrackRequest → Option Numbering × TrackReply
  | .getOrCreate => match openAlone history full n? with
    | .ok n => (some n, .opened (.ok ()))
    | .error e => (n?, .opened (.error e))
  | .forward p => match openAlone history full n? with
    | .ok n => (n.forward p).value.map some fun answer => .forwarded (.ok answer)
    | .error e => (n?, .forwarded (.error e))
  | .restart => match n? with
    | some n => (some n.restart.value, .restarted (.ok ()))
    | none => (none, .restarted (.error .unknownTrack))
  | .remove => (none, .removed n?.isSome)
  | .stats => (n?, .stats (n?.map Numbering.stats))

def serveAllAlone (history : Nat) (full : Bool) (n? : Option Numbering) :
    List TrackRequest → Option Numbering × List (TrackRequest × TrackReply)
  | [] => (n?, [])
  | request :: rest =>
    let (n?, reply) := serveAlone history full n? request
    let (n?, replies) := serveAllAlone history full n? rest
    (n?, (request, reply) :: replies)

theorem openAlone_of_ok (hr : r.Orderly) {opened : Registry}
    (hopen : (r.getOrCreate track).value = (opened, .ok h)) :
    openAlone r.settings.sequenceHistory.toNat r.isFull (r.own track) =
      .ok ((r.own track).getD (.new r.settings.sequenceHistory.toNat)) := by
  rcases opened_cases hopen with ⟨hfind, -⟩ | ⟨hnone, hroom, -⟩
  · rw [own_of_find? hr.sound hfind]
    rfl
  · rw [own_of_none hnone, hroom]
    rfl

theorem openAlone_of_error {opened : Registry} {e : RegistryError}
    (hopen : (r.getOrCreate track).value = (opened, .error e)) :
    openAlone r.settings.sequenceHistory.toNat r.isFull (r.own track) = .error e := by
  obtain ⟨-, rfl, hnone, hfull⟩ := opened_of_error hopen
  rw [own_of_none hnone, hfull]
  rfl

/-- A request about a track is served as if the track were the only one, and no other track
notices. -/
structure Alone (r : Registry) (track : TrackId) (request : TrackRequest) : Prop where
  own : ∀ track', (r.perform track request).1.own track' = if track' = track
    then (serveAlone r.settings.sequenceHistory.toNat r.isFull (r.own track) request).1
    else r.own track'
  reply : (r.perform track request).2 =
    (serveAlone r.settings.sequenceHistory.toNat r.isFull (r.own track) request).2

theorem own_eq_ite (r : Registry) (track track' : TrackId) :
    r.own track' = if track' = track then r.own track else r.own track' := by
  split
  · next heq => rw [heq]
  · rfl

namespace Orderly

theorem alone_getOrCreate (hr : r.Orderly) (track : TrackId) : r.Alone track .getOrCreate := by
  rcases hopen : (r.getOrCreate track).value with ⟨opened, e | h⟩
  · have halone := openAlone_of_error hopen
    obtain ⟨rfl, -⟩ := opened_of_error hopen
    refine ⟨fun track' => ?_, ?_⟩
    · simp only [perform, hopen, serveAlone, halone]
      exact own_eq_ite _ track track'
    · simp only [perform, hopen, serveAlone, halone]
      rfl
  · have halone := openAlone_of_ok hr hopen
    refine ⟨fun track' => ?_, ?_⟩
    · simp only [perform, hopen, serveAlone, halone]
      exact hr.own_of_opened hopen track'
    · simp only [perform, hopen, serveAlone, halone]
      rfl

theorem alone_forward (hr : r.Orderly) (track : TrackId) (p : Packet) :
    r.Alone track (.forward p) := by
  rcases hopen : (r.getOrCreate track).value with ⟨opened, e | h⟩
  · have halone := openAlone_of_error hopen
    have hforward := value_forward_of_error p hopen
    obtain ⟨rfl, -⟩ := opened_of_error hopen
    refine ⟨fun track' => ?_, ?_⟩
    · simp only [perform, hforward, serveAlone, halone]
      exact own_eq_ite _ track track'
    · simp only [perform, hforward, serveAlone, halone]
      rfl
  · have halone := openAlone_of_ok hr hopen
    obtain ⟨hopened, hfind⟩ := hr.opened hopen
    have hforward := value_forward_of_ok p hopen (hopened.sound.lt_of_find? hfind)
    have hown := hr.own_of_opened hopen track
    rw [if_pos rfl, own_of_find? hopened.sound hfind, Option.some_inj] at hown
    refine ⟨fun track' => ?_, ?_⟩
    · simp only [perform, hforward, serveAlone, halone, Prod.map_fst, id_eq]
      rw [hopened.own_set hfind, hr.own_of_opened hopen, hown]
      split <;> rfl
    · simp only [perform, hforward, serveAlone, halone, hown]
      rfl

theorem alone_restart (hr : r.Orderly) (track : TrackId) : r.Alone track .restart := by
  have hrestart := value_restart hr.sound track
  cases hfind : r.find? track with
  | some h =>
    rw [hfind] at hrestart
    have hown := own_of_find? hr.sound hfind
    refine ⟨fun track' => ?_, ?_⟩
    · simp only [perform, hrestart, serveAlone, hown]
      exact hr.own_set hfind _ track'
    · simp only [perform, hrestart, serveAlone, hown]
      rfl
  | none =>
    rw [hfind] at hrestart
    have hown := own_of_none hfind
    refine ⟨fun track' => ?_, ?_⟩
    · simp only [perform, hrestart, serveAlone, hown]
      exact (own_eq_ite r track track').trans (by rw [hown])
    · simp only [perform, hrestart, serveAlone, hown]
      rfl

theorem alone_remove (hr : r.Orderly) (track : TrackId) : r.Alone track .remove := by
  have hremove := value_remove r track
  cases hfind : r.find? track with
  | some h =>
    rw [hfind] at hremove
    have hown := own_of_find? hr.sound hfind
    refine ⟨fun track' => ?_, ?_⟩
    · simp only [perform, hremove, serveAlone]
      exact own_filter r track track'
    · simp only [perform, hremove, serveAlone, hown]
      rfl
  | none =>
    rw [hfind] at hremove
    have hown := own_of_none hfind
    refine ⟨fun track' => ?_, ?_⟩
    · simp only [perform, hremove, serveAlone]
      exact (own_eq_ite r track track').trans (by rw [hown])
    · simp only [perform, hremove, serveAlone, hown]
      rfl

theorem alone (hr : r.Orderly) (track : TrackId) (request : TrackRequest) :
    r.Alone track request := by
  cases request with
  | getOrCreate => exact hr.alone_getOrCreate track
  | forward p => exact hr.alone_forward track p
  | restart => exact hr.alone_restart track
  | remove => exact hr.alone_remove track
  | stats => exact ⟨own_eq_ite r track, congrArg TrackReply.stats (r.stats?_eq track)⟩

theorem perform (hr : r.Orderly) (track : TrackId) (request : TrackRequest) :
    (r.perform track request).1.Orderly ∧
      (r.perform track request).1.settings = r.settings := by
  cases request with
  | getOrCreate =>
    exact ⟨hr.next (.getOrCreate track), settings_getOrCreate r track⟩
  | forward p =>
    refine ⟨hr.next (.forward track p), ?_⟩
    have hsettings := settings_getOrCreate r track
    rcases hopen : (r.getOrCreate track).value with ⟨opened, e | h⟩
    · rw [hopen] at hsettings
      rw [Registry.perform, value_forward_of_error p hopen]
      exact hsettings
    · obtain ⟨hopened, hfind⟩ := hr.opened hopen
      rw [hopen] at hsettings
      rw [Registry.perform, value_forward_of_ok p hopen (hopened.sound.lt_of_find? hfind)]
      exact hsettings
  | restart =>
    refine ⟨hr.next (.restart track), ?_⟩
    rw [Registry.perform, value_restart hr.sound]
    cases r.find? track <;> rfl
  | remove =>
    refine ⟨hr.next (.remove track), ?_⟩
    rw [Registry.perform, value_remove]
    cases r.find? track <;> rfl
  | stats => exact ⟨hr, rfl⟩

theorem operate (hr : r.Orderly) (op : Operation) :
    (r.operate op).1.Orderly ∧ (r.operate op).1.settings = r.settings := by
  cases op with
  | on track request => exact hr.perform track request
  | size => exact ⟨hr, rfl⟩
  | trackIds => exact ⟨hr, rfl⟩

theorem operateAll (hr : r.Orderly) (ops : List Operation) :
    (r.operateAll ops).1.Orderly ∧ (r.operateAll ops).1.settings = r.settings := by
  induction ops generalizing r with
  | nil => exact ⟨hr, rfl⟩
  | cons op rest ih =>
    obtain ⟨hnext, hsettings⟩ := hr.operate op
    obtain ⟨hafter, hsame⟩ := ih hnext
    exact ⟨hafter, hsame.trans hsettings⟩

end Orderly

/-! ### Runs -/

/-- How one operation concerns one track. -/
inductive Concern (r : Registry) (track : TrackId) (op : Operation) : Prop
  | none (request : op.request? track = none)
      (exchange : exchange? track (op, (r.operate op).2) = none)
      (own : (r.operate op).1.own track = r.own track)
  | some (asked : TrackRequest) (request : op.request? track = some asked)
      (exchange : exchange? track (op, (r.operate op).2) = some (asked,
        (serveAlone r.settings.sequenceHistory.toNat r.isFull (r.own track) asked).2))
      (own : (r.operate op).1.own track =
        (serveAlone r.settings.sequenceHistory.toNat r.isFull (r.own track) asked).1)

theorem Orderly.concern (hr : r.Orderly) (track : TrackId) (op : Operation) :
    r.Concern track op := by
  cases op with
  | size => exact .none rfl rfl rfl
  | trackIds => exact .none rfl rfl rfl
  | on track' request =>
    have halone := hr.alone track' request
    by_cases hsame : track' = track
    · subst hsame
      refine .some request (if_pos rfl) ?_ ?_
      · rw [← halone.reply]
        exact if_pos rfl
      · exact (halone.own track').trans (if_pos rfl)
    · refine .none (if_neg hsame) (if_neg hsame) ?_
      exact (halone.own track).trans (if_neg (Ne.symm hsame))

theorem isFull_of_unlimited (h : r.settings.maxStreams = 0) : r.isFull = false := by
  rw [isFull, h]
  rfl

/-- Without a limit a track does not notice other tracks at all. -/
theorem Orderly.operateAll_eq_alone (hr : r.Orderly) (hunlimited : r.settings.maxStreams = 0)
    (track : TrackId) (ops : List Operation) :
    ((r.operateAll ops).1.own track, (r.operateAll ops).2.filterMap (exchange? track)) =
      serveAllAlone r.settings.sequenceHistory.toNat false (r.own track)
        (ops.filterMap (·.request? track)) := by
  induction ops generalizing r with
  | nil => rfl
  | cons op rest ih =>
    obtain ⟨hnext, hsettings⟩ := hr.operate op
    have hrest := ih hnext (by rwa [hsettings])
    rw [hsettings] at hrest
    rw [Registry.operateAll, List.filterMap_cons, List.filterMap_cons]
    cases hr.concern track op with
    | none request exchange own =>
      rw [own] at hrest
      rw [request, exchange]
      exact hrest
    | some asked request exchange own =>
      rw [isFull_of_unlimited hunlimited] at exchange own
      rw [own] at hrest
      rw [request, exchange]
      exact congrArg (Prod.map id ((asked, _) :: ·)) hrest

/-- What was asked of the numbering of a track since the track was created last. -/
def feed : Option (List Numbering.Request) → TrackRequest × TrackReply →
    Option (List Numbering.Request)
  | some asked, (.forward p, _) => some (asked ++ [.forward p])
  | some asked, (.restart, _) => some (asked ++ [.restart])
  | some _, (.remove, _) => none
  | some asked, _ => some asked
  | none, (.getOrCreate, .opened (.ok ())) => some []
  | none, (.forward p, .forwarded (.ok _)) => some [.forward p]
  | none, _ => none

theorem serveAlone_fed (history : Nat) (full : Bool) (log : Option (List Numbering.Request))
    (request : TrackRequest) :
    let alone := serveAlone history full (log.map (Numbering.new history).after) request
    alone.1 = (feed log (request, alone.2)).map (Numbering.new history).after := by
  cases log with
  | some asked =>
    cases request with
    | getOrCreate => rfl
    | forward p => exact congrArg some (Numbering.after_concat _ asked (.forward p)).symm
    | restart => exact congrArg some (Numbering.after_concat _ asked .restart).symm
    | remove => rfl
    | stats => rfl
  | none =>
    cases request with
    | getOrCreate => cases full <;> rfl
    | forward p => cases full <;> rfl
    | restart => rfl
    | remove => rfl
    | stats => rfl

theorem Orderly.own_operateAll (hr : r.Orderly)
    (hhistory : r.settings.sequenceHistory.toNat = history) {log : Option (List Numbering.Request)}
    (hown : r.own track = log.map (Numbering.new history).after) (ops : List Operation) :
    (r.operateAll ops).1.own track =
      (((r.operateAll ops).2.filterMap (exchange? track)).foldl feed log).map
        (Numbering.new history).after := by
  induction ops generalizing r log with
  | nil => exact hown
  | cons op rest ih =>
    obtain ⟨hnext, hsettings⟩ := hr.operate op
    rw [← hsettings] at hhistory
    rw [Registry.operateAll, List.filterMap_cons]
    cases hr.concern track op with
    | none request exchange own =>
      rw [exchange]
      exact ih hnext hhistory (own.trans hown)
    | some asked request exchange own =>
      rw [exchange, List.foldl_cons]
      refine ih hnext hhistory (own.trans ?_)
      rw [hown, ← hsettings, hhistory]
      exact serveAlone_fed history r.isFull log asked

/-- The track fares like a numbering of its own that was fresh when the track was created last, and
has been asked what the log says since. A packet of a track that is not tracked creates it first. -/
structure Isolated (r : Registry) (track : TrackId) (fresh : Numbering)
    (log : Option (List Numbering.Request)) : Prop where
  tracked : (r.find? track).isSome = log.isSome
  own : r.own track = log.map fresh.after
  forward : ∀ asked p, log = some asked →
    (r.perform track (.forward p)).2 = .forwarded (.ok ((fresh.after asked).forward p).value.2)
  restart : ∀ asked, log = some asked → (r.perform track .restart).2 = .restarted (.ok ())
  stats : ∀ asked, log = some asked →
    (r.perform track .stats).2 = .stats (some (fresh.after asked).stats)
  first : ∀ p answer, log = none →
    (r.perform track (.forward p)).2 = .forwarded (.ok answer) →
      answer = (fresh.forward p).value.2 ∧ (r.perform track .getOrCreate).2 = .opened (.ok ()) ∧
        r.perform track (.forward p) = (r.perform track .getOrCreate).1.perform track (.forward p)

theorem isSome_own (hs : r.Sound) (track : TrackId) :
    (r.own track).isSome = (r.find? track).isSome := by
  cases hfind : r.find? track with
  | some h => rw [own_of_find? hs hfind, Option.isSome_some, Option.isSome_some]
  | none => rw [own_of_none hfind]; rfl

theorem perform_forward_eq_create (hr : r.Orderly) {p : Packet} {answer : Except Refusal Packet}
    (hreply : (r.perform track (.forward p)).2 = .forwarded (.ok answer)) :
    (r.perform track .getOrCreate).2 = .opened (.ok ()) ∧
      r.perform track (.forward p) =
        (r.perform track .getOrCreate).1.perform track (.forward p) := by
  rcases hopen : (r.getOrCreate track).value with ⟨opened, e | h⟩
  · rw [perform, value_forward_of_error p hopen] at hreply
    cases hreply
  · obtain ⟨hopened, hfind⟩ := hr.opened hopen
    have hlt := hopened.sound.lt_of_find? hfind
    have hagain : (opened.getOrCreate track).value = (opened, .ok h) := by
      rw [value_getOrCreate, hfind]
    have hcreate : r.perform track .getOrCreate = (opened, .opened (.ok ())) := by
      rw [perform, hopen]
      rfl
    rw [hcreate, perform, perform, value_forward_of_ok p hopen hlt,
      value_forward_of_ok p hagain hlt]
    exact ⟨rfl, rfl⟩

theorem Orderly.isolated (hr : r.Orderly) (hhistory : r.settings.sequenceHistory.toNat = history)
    {log : Option (List Numbering.Request)}
    (hown : r.own track = log.map (Numbering.new history).after) :
    r.Isolated track (.new history) log where
  tracked := by
    rw [← isSome_own hr.sound, hown, Option.isSome_map]
  own := hown
  forward asked p hlog := by
    rw [(hr.alone track (.forward p)).reply, hown, hlog]
    rfl
  restart asked hlog := by
    rw [(hr.alone track .restart).reply, hown, hlog]
    rfl
  stats asked hlog := by
    rw [(hr.alone track .stats).reply, hown, hlog]
    rfl
  first p answer hlog hreply := by
    refine ⟨?_, perform_forward_eq_create hr hreply⟩
    rw [(hr.alone track (.forward p)).reply, hown, hlog, hhistory] at hreply
    cases hfull : r.isFull with
    | true =>
      rw [hfull] at hreply
      cases hreply
    | false =>
      rw [hfull] at hreply
      cases hreply
      rfl

/-- In a run each track fares like a numbering of its own. So without a limit on the number of
tracks, what a track replies and ends up as depends on nothing but the requests about it. -/
theorem tracks_isolated (settings : Settings) :
    (∀ ops track,
        let run := (new settings).value.operateAll ops
        run.1.Isolated track (.new settings.sequenceHistory.toNat)
          ((run.2.filterMap (exchange? track)).foldl feed none)) ∧
      (settings.maxStreams = 0 → ∀ ops ops' track,
        ops.filterMap (·.request? track) = ops'.filterMap (·.request? track) →
        let run := (new settings).value.operateAll ops
        let run' := (new settings).value.operateAll ops'
        run.2.filterMap (exchange? track) = run'.2.filterMap (exchange? track) ∧
          run.1.own track = run'.1.own track) := by
  have hnew := Orderly.new settings
  refine ⟨fun ops track => ?_, fun hunlimited ops ops' track hsame => ?_⟩
  · obtain ⟨hr, hsettings⟩ := hnew.operateAll ops
    exact hr.isolated (by rw [hsettings]; rfl) (hnew.own_operateAll rfl rfl ops)
  · have hrun := hnew.operateAll_eq_alone hunlimited track ops
    have hrun' := hnew.operateAll_eq_alone hunlimited track ops'
    rw [hsame, ← hrun'] at hrun
    exact ⟨congrArg Prod.snd hrun, congrArg Prod.fst hrun⟩

/-- Two tracks by turns. One of them is removed and comes back with its next packet. -/
private def byTurns : List Operation :=
  [.on ⟨"a"⟩ (.forward ⟨1, 10, 0, [1], 0⟩), .on ⟨"b"⟩ (.forward ⟨2, 20, 0, [1], 0⟩), .on ⟨"a"⟩ .remove,
    .size, .on ⟨"b"⟩ .stats, .on ⟨"a"⟩ (.forward ⟨1, 50, 0, [1], 0⟩)]

/-- One after the other. -/
private def inTurn : List Operation :=
  [.on ⟨"b"⟩ (.forward ⟨2, 20, 0, [1], 0⟩), .on ⟨"b"⟩ .stats, .on ⟨"a"⟩ (.forward ⟨1, 10, 0, [1], 0⟩),
    .on ⟨"a"⟩ .remove, .on ⟨"a"⟩ (.forward ⟨1, 50, 0, [1], 0⟩), .trackIds]

theorem tracks_isolated_byTurns :
    let run := (new {}).value.operateAll byTurns
    let run' := (new {}).value.operateAll inTurn
    run.1.Isolated ⟨"a"⟩ (.new 100) (some [.forward ⟨1, 50, 0, [1], 0⟩]) ∧
      run.1.find? ⟨"a"⟩ = some ⟨2⟩ ∧
      run'.2.filterMap (exchange? ⟨"b"⟩) = run.2.filterMap (exchange? ⟨"b"⟩) ∧
      (run'.1.own ⟨"b"⟩).map Numbering.stats = some { forwarded := 1 } := by
  obtain ⟨hisolated, hinterleaved⟩ := tracks_isolated {}
  refine ⟨hisolated byTurns ⟨"a"⟩, by decide, ?_, by decide⟩
  exact (hinterleaved rfl inTurn byTurns ⟨"b"⟩ (by decide)).1

end Renumber.Registry
