import Renumber.Event

/-! Results together with the events reported on the way. -/
namespace Renumber

/-- A value and the events reported while it was computed, oldest first. -/
structure Traced (α : Type) where
  /-- What wider counters would give, if one did not fit. -/
  value : α
  events : List Event
  /-- A counter did not fit into a machine word. -/
  overflow : Bool

namespace Traced

variable {α β : Type}

instance : Monad Traced where
  pure a := ⟨a, [], false⟩
  bind x f :=
    let y := f x.value
    ⟨y.value, x.events ++ y.events, x.overflow || y.overflow⟩

/-- The answer. There is none after an overflow, which either stops the computation at once or
spoils the state that the rest of it needs. -/
def outcome (x : Traced α) : Option α := if x.overflow then none else some x.value

/-- Reports one event. -/
def report (e : Event) : Traced Unit := ⟨(), [e], false⟩

/-- Reports one event if the condition holds. -/
def reportIf (c : Bool) (e : Event) : Traced Unit := ⟨(), if c then [e] else [], false⟩

/-- Counts up to a number, which takes a machine word of 64 bits. -/
def count (n : Nat) : Traced Unit := ⟨(), [], UInt64.size ≤ n⟩

@[simp] theorem value_pure (a : α) : (pure a : Traced α).value = a := rfl

@[simp] theorem events_pure (a : α) : (pure a : Traced α).events = [] := rfl

@[simp] theorem overflow_pure (a : α) : (pure a : Traced α).overflow = false := rfl

@[simp] theorem value_bind (x : Traced α) (f : α → Traced β) :
    (x >>= f).value = (f x.value).value := rfl

@[simp] theorem events_bind (x : Traced α) (f : α → Traced β) :
    (x >>= f).events = x.events ++ (f x.value).events := rfl

@[simp] theorem overflow_bind (x : Traced α) (f : α → Traced β) :
    (x >>= f).overflow = (x.overflow || (f x.value).overflow) := rfl

@[simp] theorem value_map (f : α → β) (x : Traced α) : (f <$> x).value = f x.value := rfl

@[simp] theorem events_map (f : α → β) (x : Traced α) : (f <$> x).events = x.events := by
  change x.events ++ [] = _
  simp

@[simp] theorem overflow_map (f : α → β) (x : Traced α) : (f <$> x).overflow = x.overflow :=
  Bool.or_false _

@[ext] theorem ext {x y : Traced α} (hvalue : x.value = y.value) (hevents : x.events = y.events)
    (hoverflow : x.overflow = y.overflow) : x = y := by
  cases x
  cases y
  cases hvalue
  cases hevents
  cases hoverflow
  rfl

instance : LawfulMonad Traced :=
  .mk' Traced (fun x => ext rfl (events_map id x) (overflow_map id x)) (fun _ _ => rfl)
    fun x f g => ext rfl (List.append_assoc ..) (Bool.or_assoc ..)

/-- What follows matters only at the value that is there. -/
theorem bind_congr {x : Traced α} {f g : α → Traced β} (h : f x.value = g x.value) :
    x >>= f = x >>= g := by
  apply ext
  · rw [value_bind, value_bind, h]
  · rw [events_bind, events_bind, h]
  · rw [overflow_bind, overflow_bind, h]

@[simp] theorem events_report (e : Event) : (report e).events = [e] := rfl

@[simp] theorem overflow_report (e : Event) : (report e).overflow = false := rfl

@[simp] theorem events_reportIf (c : Bool) (e : Event) :
    (reportIf c e).events = if c then [e] else [] := rfl

@[simp] theorem overflow_reportIf (c : Bool) (e : Event) : (reportIf c e).overflow = false := rfl

@[simp] theorem events_count (n : Nat) : (count n).events = [] := rfl

@[simp] theorem overflow_count (n : Nat) : (count n).overflow = decide (UInt64.size ≤ n) := rfl

theorem outcome_of_not_overflow {x : Traced α} (h : x.overflow = false) :
    x.outcome = some x.value := by
  rw [outcome, h]
  rfl

end Traced

end Renumber
