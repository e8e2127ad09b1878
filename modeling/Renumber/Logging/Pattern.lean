/-! Patterns for the values of fields. Only their form matters here: a filter with a pattern that is
not well-formed is refused as a whole. -/
namespace Renumber.Pattern

/-- What the text of a pattern is in the middle of. -/
inductive State where
  /-- There is an item before this place that can be repeated, or there is none. -/
  | sequence (repeatable : Bool)
  /-- A set of characters in brackets. It does not end before its first character. -/
  | set (begun : Bool)
  deriving DecidableEq, Repr

def isNamedEscape (c : Char) : Bool := "afnrtvdDsSwWpPxuUAz".toList.contains c

def isEscapable (c : Char) : Bool :=
  isNamedEscape c || (c.toNat < 0x80 && !c.isAlphanum && c ≠ '<' && c ≠ '>')

/-- A character that may stand after a question mark at the start of a group. -/
def isGroupMark (c : Char) : Bool := ":<PimsxUuR-".toList.contains c

/-- The rest of a pattern is well-formed. Groups that are open are counted. -/
def isWellFormedFrom (state : State) (groups : Nat) : List Char → Bool
  | [] => groups = 0 && (state matches .sequence _)
  | ['\\'] => false
  | '\\' :: c :: cs =>
    isEscapable c &&
      isWellFormedFrom (match state with
        | .sequence _ => .sequence true
        | .set _ => .set true) groups cs
  | '(' :: '?' :: c :: cs =>
    match state with
    | .sequence _ => isGroupMark c && isWellFormedFrom (.sequence false) (groups + 1) cs
    | .set _ => isWellFormedFrom (.set true) groups (c :: cs)
  | c :: cs =>
    match state with
    | .set begun =>
      if c = ']' && begun then isWellFormedFrom (.sequence true) groups cs
      else isWellFormedFrom (.set (begun || c ≠ '^')) groups cs
    | .sequence repeatable =>
      if c = '[' then isWellFormedFrom (.set false) groups cs
      else if c = '(' then isWellFormedFrom (.sequence false) (groups + 1) cs
      else if c = ')' then 0 < groups && isWellFormedFrom (.sequence true) (groups - 1) cs
      else if c = '|' then isWellFormedFrom (.sequence false) groups cs
      else if c = '*' || c = '+' || c = '?' then
        repeatable && isWellFormedFrom (.sequence true) groups cs
      else c ≠ '\x7b' && isWellFormedFrom (.sequence true) groups cs

def isWellFormed (cs : List Char) : Bool := isWellFormedFrom (.sequence false) 0 cs

end Renumber.Pattern
