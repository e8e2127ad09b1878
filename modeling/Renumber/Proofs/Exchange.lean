import Renumber.Proofs.Outcome

/-! Runs of a numbering as the list of its exchanges: each request with the state that met it. -/
namespace Renumber.Numbering

/-- A request and the state that serves it. -/
structure Exchange where
  before : Numbering
  request : Request
  deriving DecidableEq, Repr

namespace Exchange

def after (x : Exchange) : Numbering := (x.before.serve x.request).value.1

def reply (x : Exchange) : Reply := (x.before.serve x.request).value.2

/-- A packet that starts the incoming numbers anew. -/
def rebases (x : Exchange) : Bool :=
  match x.request with
  | .forward p => x.before.due p
  | _ => false

/-- The extended incoming number of the packet, if it has one. -/
def extended (x : Exchange) : Option (BitVec 64) :=
  match x.request with
  | .forward p => ((x.before.facing p).unwrapper.extend p.sequenceNumber).1
  | _ => none

/-- The place of the packet in both streams, if it is forwarded. -/
def placed (x : Exchange) : Option Placement :=
  match x.request with
  | .forward p => (x.before.receive p).value.2.toOption
  | _ => none

/-- The extended incoming number of the packet, if it is answered as dropped padding. -/
def dropped (x : Exchange) : Option (BitVec 64) :=
  match x.reply with
  | .forwarded (.error .paddingDropped) => x.extended
  | _ => none

/-- The extended outgoing numbers that are reserved for padding. -/
def reserved (x : Exchange) : List (BitVec 64) :=
  match x.request with
  | .inject count => (x.before.reserve count).value.2.toOption.getD []
  | _ => []

theorem reply_forward (n : Numbering) (p : Packet) :
    reply ⟨n, .forward p⟩ = .forwarded ((n.receive p).value.2.map fun spot =>
      p.withSequenceNumber (spot.outgoing.setWidth 16)) := Numbering.reply_forward n p

theorem after_forward (n : Numbering) (p : Packet) :
    after ⟨n, .forward p⟩ = (n.receive p).value.1 := rfl

theorem extended_forward (n : Numbering) (p : Packet) :
    extended ⟨n, .forward p⟩ = ((n.facing p).unwrapper.extend p.sequenceNumber).1 := rfl

theorem reply_inject (n : Numbering) (count : BitVec 16) :
    reply ⟨n, .inject count⟩ = .injected (match (n.reserve count).value.2 with
      | .ok numbers => .ok (numbers.map (·.setWidth 16))
      | .error e => .error (.inconsistent e)) := Numbering.reply_inject n count

theorem placed_of_ok {n : Numbering} {p : Packet} {spot : Placement}
    (h : (n.receive p).value.2 = .ok spot) : placed ⟨n, .forward p⟩ = some spot :=
  congrArg Except.toOption h

theorem placed_of_error {n : Numbering} {p : Packet} {refusal : Refusal}
    (h : (n.receive p).value.2 = .error refusal) : placed ⟨n, .forward p⟩ = none :=
  congrArg Except.toOption h

theorem reserved_inject (n : Numbering) (count : BitVec 16) :
    reserved ⟨n, .inject count⟩ = (n.reserve count).value.2.toOption.getD [] := rfl

theorem after_inject (n : Numbering) (count : BitVec 16) :
    after ⟨n, .inject count⟩ = (n.reserve count).value.1 := rfl

theorem after_restart (n : Numbering) :
    after ⟨n, .restart⟩ = { n with restartPending := true } := rfl

/-- A packet that is forwarded comes out with the number of its place. -/
theorem placed_of_reply {x : Exchange} {p answer : Packet} (hp : x.request = .forward p)
    (h : x.reply = .forwarded (.ok answer)) :
    ∃ spot, x.placed = some spot ∧
      answer = p.withSequenceNumber (spot.outgoing.setWidth 16) := by
  obtain ⟨n, request⟩ := x
  subst hp
  rw [reply_forward] at h
  cases hres : (n.receive p).value.2 with
  | error refusal =>
    rw [hres] at h
    cases h
  | ok spot =>
    rw [hres] at h
    cases h
    exact ⟨spot, placed_of_ok hres, rfl⟩

end Exchange

def exchanges (n : Numbering) : List Request → List Exchange
  | [] => []
  | request :: rest => ⟨n, request⟩ :: exchanges (Exchange.after ⟨n, request⟩) rest

def after (n : Numbering) (requests : List Request) : Numbering := (n.serveAll requests).value.1

theorem after_cons (n : Numbering) (request : Request) (rest : List Request) :
    n.after (request :: rest) = (Exchange.after ⟨n, request⟩).after rest := rfl

theorem replies_eq (n : Numbering) (requests : List Request) :
    (n.serveAll requests).value.2 = (n.exchanges requests).map Exchange.reply := by
  induction requests generalizing n with
  | nil => rfl
  | cons request rest ih =>
    have := ih (Exchange.after ⟨n, request⟩)
    simp only [serveAll, Traced.value_bind, Traced.value_pure, exchanges, List.map_cons, ← this]
    rfl

theorem after_append (n : Numbering) (earlier later : List Request) :
    n.after (earlier ++ later) = (n.after earlier).after later := by
  induction earlier generalizing n with
  | nil => rfl
  | cons first rest ih => rw [List.cons_append, after_cons, after_cons, ih]

theorem after_concat (n : Numbering) (requests : List Request) (request : Request) :
    n.after (requests ++ [request]) = Exchange.after ⟨n.after requests, request⟩ :=
  n.after_append requests [request]

theorem exchanges_append (n : Numbering) (earlier later : List Request) :
    n.exchanges (earlier ++ later) = n.exchanges earlier ++ (n.after earlier).exchanges later := by
  induction earlier generalizing n with
  | nil => rfl
  | cons first rest ih => simp only [List.cons_append, exchanges, ih, after_cons]

theorem exchanges_concat (n : Numbering) (requests : List Request) (request : Request) :
    n.exchanges (requests ++ [request]) =
      n.exchanges requests ++ [⟨n.after requests, request⟩] := n.exchanges_append requests [request]

/-- Every exchange of a run meets the state after an earlier part of the run. -/
theorem exists_before_eq {n : Numbering} {requests : List Request} {x : Exchange}
    (hx : x ∈ n.exchanges requests) :
    ∃ earlier : List Request, earlier.length < requests.length ∧ x.before = n.after earlier := by
  induction requests generalizing n with
  | nil => cases hx
  | cons first rest ih =>
    rcases List.mem_cons.mp hx with rfl | hx
    · exact ⟨[], Nat.zero_lt_succ _, rfl⟩
    · obtain ⟨earlier, hlt, hbefore⟩ := ih hx
      exact ⟨first :: earlier, Nat.succ_lt_succ hlt, hbefore⟩

end Renumber.Numbering
