import Renumber.Logging.Directive
import Renumber.Text.Split

/-! Filters that select events by severity, target and fields. -/
namespace Renumber

/-- The rules of a filter. -/
abbrev Filter := List Directive

namespace Filter

/-- Reads rules with commas between them. -/
def parse? (text : String) : Option Filter :=
  (Text.parts ',' text).mapM Directive.parse?

/-- The rules of a text that can be read. -/
def ofText (text : String) : Filter :=
  (Text.parts ',' text).filterMap Directive.parse?

/-- The rule that decides about an event: the most exact one, and of equal ones the last. -/
def deciding (f : Filter) (e : Event) : Option Directive :=
  f.foldl (fun best d => if d.appliesTo e ∧ best.all (·.yieldsTo d) then some d else best) none

def allows (f : Filter) (e : Event) : Bool :=
  match (f.deciding e).bind (·.level) with
  | some level => level.rank ≤ e.level.rank
  | none => false

end Filter

end Renumber
