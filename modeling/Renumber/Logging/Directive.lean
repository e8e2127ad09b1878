import Renumber.Decimal.Reader
import Renumber.Event
import Renumber.Logging.Pattern
import Renumber.Text.Alphanumeric
import Renumber.Text.Blank
import Renumber.Text.Bytes
import Renumber.Text.Lowercase

/-! Rules of a filter, and how they are written. -/
namespace Renumber

/-- A rule of a filter: the events to which it applies, and the least level that passes. -/
structure Directive where
  /-- How the targets begin. Without it the rule applies to all of them. -/
  target : Option String := none
  /-- The rule is about spans of the name. -/
  span : Option String := none
  /-- A field that events have. -/
  field : Option String := none
  /-- The rule is about spans with a value of the field. -/
  value : Option String := none
  /-- Nothing passes if there is no level. -/
  level : Option Level := some .trace
  deriving DecidableEq, Repr

namespace Directive

/-- The least level that a word lets pass. A digit counts the levels that pass. -/
def level? (word : String) : Option (Option Level) :=
  let digits := match word.toList with
    | '+' :: cs => cs
    | cs => cs
  match String.ofList (digits.dropWhile (· = '0')), Text.lower word with
  | _, "off" => some none
  | _, "error" => some (some .error)
  | _, "warn" => some (some .warn)
  | _, "info" => some (some .info)
  | _, "debug" => some (some .debug)
  | _, "trace" => some (some .trace)
  | "", _ => if digits = [] then none else some none
  | "1", _ => some (some .error)
  | "2", _ => some (some .warn)
  | "3", _ => some (some .info)
  | "4", _ => some (some .debug)
  | "5", _ => some (some .trace)
  | _, _ => none

def isStart (c : Char) : Bool := Text.isAlphanumeric c || c = '-' || c = ':' || c = '_'

/-- The name of a field, and a value that may follow it. The value is a number, a truth value or a
pattern. -/
def field? (cs : List Char) : Option (String × Option String) :=
  let name := String.ofList (cs.takeWhile (· ≠ '='))
  match cs.dropWhile (· ≠ '=') with
  | [] => some (name, none)
  | _ :: rest =>
    let value := rest.takeWhile (· ≠ '=')
    if (Binary64.parse? (String.ofList value)).isSome || Pattern.isWellFormed value then
      some (name, some (String.ofList value))
    else none

/-- Reads a level, a target, or both with an equality sign between them. Before that sign, a span or
a field of it may stand in brackets. Without a level everything passes. The parts are found in the
text without blanks at its ends, and the same bytes are then taken from the text as given. So blanks
before a rule shift its parts. -/
def parse? (text : String) : Option Directive :=
  let given := text.toList
  let trimmed := Text.trim given
  let size := Text.byteCount trimmed
  -- the characters as given from where a rest of the trimmed text begins
  let from? (rest : List Char) : Option (List Char) :=
    Text.dropBytes? (size - Text.byteCount rest) given
  -- as many of them as the part takes up
  let part? (part rest : List Char) : Option String :=
    ((from? (part ++ rest)).bind (Text.takeBytes? (Text.byteCount part))).map String.ofList
  let withLevel (d : Directive) (rest : List Char) : Option Directive := do
    let word ← from? rest
    if word = [] then some d
    else
      let level ← level? (String.ofList word)
      some { d with level := level }
  let close (d : Directive) : List Char → Option Directive
    | [] => some d
    | '=' :: rest => withLevel d rest
    | _ => none
  let brackets (d : Directive) (cs : List Char) : Option Directive := do
    let isEnd (c : Char) : Bool := c = ']' || c = '\x7b'
    let name := cs.takeWhile (!isEnd ·)
    let span ← part? name (cs.dropWhile (!isEnd ·))
    match cs.dropWhile (!isEnd ·) with
    | ']' :: rest => close { d with span := some span } rest
    | '\x7b' :: rest =>
      let inner := rest.takeWhile (· ≠ '\x7d')
      match rest.dropWhile (· ≠ '\x7d') with
      | '\x7d' :: ']' :: after =>
        if inner = [] then none
        else
          let written ← part? inner ('\x7d' :: ']' :: after)
          let (field, value) ← field? written.toList
          let span := if name = [] then none else some span
          close { d with span := span, field := some field, value := value } after
      | _ => none
    | _ => none
  let isMark (c : Char) : Bool := c = '=' || c = '['
  let head := trimmed.takeWhile (!isMark ·)
  let rest := trimmed.dropWhile (!isMark ·)
  match head, rest with
  | [], '[' :: rest => brackets {} rest
  | [], _ => none
  | c :: _, rest =>
    if !isStart c then none
    else
      match rest with
      | '=' :: after => do
        let target ← part? head rest
        withLevel { target := some target } after
      | '[' :: after => do
        let target ← part? head rest
        brackets { target := some target } after
      | _ =>
        match level? text with
        | some level => some { level := level }
        | none => some { target := some text }

/-- The rule applies to the event. Events are in no span, so rules about spans apply to none. -/
def appliesTo (d : Directive) (e : Event) : Bool :=
  d.span.isNone && d.value.isNone &&
    d.target.all (fun start => start.toList.isPrefixOf e.target.toList) &&
    d.field.all fun name => name = "message" || e.fields.any (·.1 = name)

def exactness (d : Directive) : Nat :=
  match d.target with
  | none => 0
  | some start => start.utf8ByteSize + 1

/-- The second rule decides about events to which both apply: its target is longer, or else it names
a field and the first does not, or else its field comes later in the order of texts. -/
def yieldsTo (a b : Directive) : Bool :=
  a.exactness < b.exactness || (a.exactness = b.exactness &&
    match a.field, b.field with
    | none, _ => true
    | some _, none => false
    | some x, some y => !decide (y < x))

end Directive

end Renumber
