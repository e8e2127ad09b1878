import Renumber.Event
import Renumber.Json

/-! Records of events in a log. -/
namespace Renumber

/-- The form of a log's records. -/
inductive LogFormat where
  | json
  | pretty
  deriving DecidableEq, Repr

namespace FieldValue

def toJson : FieldValue → Json
  | .number n => .nat n
  | .text s => .str s

def toText : FieldValue → String
  | .number n => toString n
  | .text s => s

end FieldValue

namespace Event

def toJson (e : Event) : Json :=
  .obj [("level", .str e.level.label), ("target", .str e.target),
    ("fields", .obj (("message", .str e.message) ::
      e.fields.map fun (name, v) => (name, v.toJson)))]

def toLine (e : Event) : String :=
  e.level.label ++ " " ++ e.target ++ ": " ++ e.message ++
    String.join (e.fields.map fun (name, v) => ", " ++ name ++ ": " ++ v.toText)

end Event

/-- A line of a log. -/
inductive LogLine where
  /-- A line that was there before. -/
  | text (s : String)
  | record (format : LogFormat) (e : Event)
  deriving DecidableEq, Repr

/-- The line as a value: an object for a record in JSON form, else its text. -/
def LogLine.toJson : LogLine → Json
  | .text s => .str s
  | .record .json e => e.toJson
  | .record .pretty e => .str e.toLine

end Renumber
