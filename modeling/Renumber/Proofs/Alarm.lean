import Renumber.Proofs.Exchange

/-! Alarms are events that tell of a broken invariant. A numbering raises one only where it also
gives an inconsistent reply. -/
namespace Renumber

/-- A key of a history is in no range and in no gap, or a numbering is found inconsistent. -/
def Event.Alarm : Event → Prop
  | .unmatchedKey .. | .inconsistent .. => True
  | _ => False

namespace Traced

variable {α β : Type}

/-- No alarm is raised. -/
def Calm (x : Traced α) : Prop := ∀ e ∈ x.events, ¬e.Alarm

theorem calm_pure (a : α) : (pure a : Traced α).Calm := fun _ he => absurd he List.not_mem_nil

theorem Calm.bind {x : Traced α} {f : α → Traced β} (hx : x.Calm) (hf : (f x.value).Calm) :
    (x >>= f).Calm := by
  intro e he
  rw [events_bind] at he
  rcases List.mem_append.mp he with he | he
  · exact hx e he
  · exact hf e he

theorem calm_map_iff {x : Traced α} {f : α → β} : (f <$> x).Calm ↔ x.Calm := by
  simp only [Calm, events_map]

theorem calm_report {e : Event} (h : ¬e.Alarm) : (report e).Calm := by
  intro e' he
  obtain rfl := List.mem_singleton.mp he
  exact h

theorem calm_reportIf {c : Bool} {e : Event} (h : c = true → ¬e.Alarm) : (reportIf c e).Calm := by
  intro e' he
  rw [events_reportIf] at he
  split at he
  · next hc =>
    obtain rfl := List.mem_singleton.mp he
    exact h hc
  · cases he

end Traced

open Traced

namespace History

variable {k v : Nat}

theorem calm_lookup {h : History k v} {key : BitVec k} (hfound : h.get key ≠ .error .notFound) :
    (h.lookup key).Calm := by
  refine (calm_reportIf fun hc => ?_).bind (calm_pure _)
  split at hc
  · next heq => exact absurd heq hfound
  · cases hc

theorem calm_split (h : History k v) (stop next : BitVec k) (value : BitVec v) :
    (h.split stop next value).Calm := (calm_reportIf fun _ => id).bind (calm_pure _)

theorem calm_exclude (h : History k v) (first stop : BitVec k) : (h.exclude first stop).Calm := by
  simp only [exclude]
  split
  · exact calm_pure _
  split
  · exact calm_pure _
  split
  · exact calm_pure _
  · exact calm_map_iff.mpr (h.calm_split _ _ _)

theorem calm_lowerFrom (h : History k v) (key : BitVec k) (delta : BitVec v) :
    (h.lowerFrom key delta).Calm := by
  unfold lowerFrom
  split
  · exact calm_pure _
  split
  · exact calm_pure _
  · exact calm_map_iff.mpr (h.calm_split _ _ _)

end History

/-- The history of offsets refused nothing. -/
def Refusal.Consistent {α : Type} (answer : Except Refusal α) : Prop :=
  ∀ cause, answer ≠ .error (.inconsistent cause)

open Refusal (Consistent)

namespace Numbering

variable {n : Numbering}

theorem calm_follow (n : Numbering) (ssrc : BitVec 32) : (n.follow ssrc).Calm := by
  simp only [follow]
  split
  · exact ((calm_report id).bind (calm_pure _)).bind (calm_pure _)
  · exact (calm_pure n).bind (calm_pure _)

theorem calm_nextOutgoing (h : n.nextOutgoing.value ≠ .error .notFound) : n.nextOutgoing.Calm := by
  rw [value_nextOutgoing] at h
  unfold nextOutgoing
  cases hhead : n.head with
  | none => exact calm_pure _
  | some head =>
    rw [hhead] at h
    refine Calm.bind (History.calm_lookup fun hget => h ?_) (calm_pure _)
    simp only [hget]
    rfl

theorem calm_rebase {e : BitVec 64} (h : n.nextOutgoing.value ≠ .error .notFound) :
    (n.rebase e).Calm := by
  refine (calm_nextOutgoing h).bind ?_
  split
  · exact calm_pure _
  · exact (calm_report id).bind (calm_pure _)

theorem calm_placeLate {ssrc : BitVec 32} {s : BitVec 16} {e : BitVec 64}
    (h : Consistent (n.placeLate ssrc s e).value.2) : (n.placeLate ssrc s e).Calm := by
  rw [value_placeLate] at h
  refine Calm.bind (History.calm_lookup fun hget => ?_) ?_
  · rw [hget] at h
    exact h _ rfl
  split
  · exact calm_pure _
  · exact calm_pure _
  · exact (calm_report id).bind (calm_pure _)
  · exact calm_pure _

theorem calm_dropPadding (n : Numbering) (e : BitVec 64) : (n.dropPadding e).Calm := by
  refine (n.offsets.calm_exclude _ _).bind ?_
  split <;> exact calm_pure _

theorem calm_placeHead {e : BitVec 64} (h : Consistent (n.placeHead e).value.2) :
    (n.placeHead e).Calm := by
  rw [value_placeHead] at h
  refine Calm.bind (History.calm_lookup fun hget => ?_) ?_
  · rw [hget] at h
    exact h _ rfl
  split <;> exact calm_pure _

theorem calm_place {p : Packet} {e : BitVec 64} (h : Consistent (n.place p e).value.2) :
    (n.place p e).Calm := by
  rw [value_place] at h
  unfold place
  split
  · exact calm_pure _
  next hdup =>
  rw [if_neg hdup] at h
  split
  · next hlate =>
    rw [if_pos hlate] at h
    exact calm_placeLate h
  next hlate =>
  rw [if_neg hlate] at h
  split
  · exact calm_dropPadding _ e
  · next hp =>
    rw [if_neg hp] at h
    exact calm_placeHead h

theorem calm_receive {p : Packet} (h : Consistent (n.receive p).value.2) : (n.receive p).Calm := by
  unfold receive at h ⊢
  refine (n.calm_follow p.ssrc).bind ?_
  simp only [value_bind] at h
  generalize (n.follow p.ssrc).value = m at h ⊢
  rcases hext : (if m.restartPending then {} else m.unwrapper : Unwrapper).extend
    p.sequenceNumber with ⟨_ | e, unwrapper⟩
  · simp only [hext]
    exact calm_pure _
  simp only [hext] at h ⊢
  by_cases hr : m.restartPending
  · rw [if_pos hr] at h ⊢
    simp only [value_bind] at h
    refine Calm.bind (calm_rebase fun hnext => ?_) ?_
    · rw [value_rebase, hnext] at h
      exact h _ rfl
    · cases hrebase : (rebase { m with unwrapper := unwrapper } e).value with
      | error cause => exact calm_pure _
      | ok m' =>
        rw [hrebase] at h
        exact calm_place h
  · rw [if_neg hr] at h ⊢
    exact calm_place h

theorem calm_reserve {count : BitVec 16} (h : (n.reserve count).value.2 ≠ .error .notFound) :
    (n.reserve count).Calm := by
  refine Calm.bind (calm_nextOutgoing fun hnext => h ?_) ?_
  · rw [value_reserve, hnext]
  split
  · exact calm_pure _
  · exact calm_pure _
  split
  · exact calm_pure _
  cases n.head with
  | none => exact (calm_pure _).bind (calm_pure _)
  | some head =>
    refine (n.offsets.calm_lowerFrom _ _).bind ?_
    cases (n.offsets.lowerFrom (head + 1) (count.setWidth 64)).value <;> exact calm_pure _

/-- The reply tells of no inconsistency. -/
def Reply.Consistent : Reply → Prop
  | .forwarded answer => Refusal.Consistent answer
  | .injected answer => Refusal.Consistent answer
  | .restarted => True

theorem Exchange.consistent_forward_iff (n : Numbering) (p : Packet) :
    (reply ⟨n, .forward p⟩).Consistent ↔ Refusal.Consistent (n.receive p).value.2 := by
  rw [reply_forward]
  cases (n.receive p).value.2 <;> simp [Reply.Consistent, Refusal.Consistent, Except.map]

/-- Where the reply tells of no inconsistency, no alarm is raised. -/
theorem Exchange.calm (x : Exchange) (h : x.reply.Consistent) :
    (x.before.serve x.request).Calm := by
  obtain ⟨n, request⟩ := x
  cases request with
  | forward p =>
    rw [consistent_forward_iff] at h
    exact calm_map_iff.mpr (calm_map_iff.mpr (calm_receive h))
  | inject count =>
    refine calm_map_iff.mpr (calm_map_iff.mpr (calm_reserve fun hres => ?_))
    rw [reply_inject, hres] at h
    exact h .notFound rfl
  | restart => exact calm_map_iff.mpr ((calm_report id).bind (calm_pure _))

theorem calm_serveAll (n : Numbering) (requests : List Request)
    (h : ∀ x ∈ n.exchanges requests, x.reply.Consistent) : (n.serveAll requests).Calm := by
  induction requests generalizing n with
  | nil => exact calm_pure _
  | cons request rest ih =>
    have hfirst := h ⟨n, request⟩ (List.mem_cons_self ..)
    have hrest := ih (Exchange.after ⟨n, request⟩) fun x hx => h x (List.mem_cons_of_mem _ hx)
    exact (Exchange.calm _ hfirst).bind (hrest.bind (calm_pure _))

end Numbering

end Renumber
