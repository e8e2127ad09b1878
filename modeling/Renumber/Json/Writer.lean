import Renumber.Decimal.Shortest
import Renumber.Json

/-! Texts of JSON values, without blanks. -/
namespace Renumber.Json

/-- A character inside a JSON string. Only quotation marks, backslashes and controls are escaped. -/
def escapeChar (c : Char) : List Char :=
  if c = '"' ∨ c = '\\' then ['\\', c]
  else if c = '\n' then ['\\', 'n']
  else if c = '\r' then ['\\', 'r']
  else if c = '\t' then ['\\', 't']
  else if c = '\x08' then ['\\', 'b']
  else if c = '\x0c' then ['\\', 'f']
  else if c.toNat < 0x20 then
    ['\\', 'u', '0', '0', Nat.digitChar (c.toNat / 16), Nat.digitChar (c.toNat % 16)]
  else [c]

def renderString (s : String) : String :=
  String.ofList ('"' :: s.toList.flatMap escapeChar ++ ['"'])

mutual

def write (text : String) : Json → String
  | .null => text ++ "null"
  | .bool b => text ++ if b then "true" else "false"
  | .int n => text ++ toString n
  | .float x => text ++ x.render .scientific
  | .str s => text ++ renderString s
  | .arr items => writeItems (text ++ "[") true items ++ "]"
  | .obj members => writeMembers (text ++ "\x7b") true members ++ "\x7d"

/-- The text with those of items after it, and a comma before each item but the first. -/
def writeItems (text : String) (first : Bool) : List Json → String
  | [] => text
  | item :: rest => writeItems (write (if first then text else text ++ ",") item) false rest

/-- The text with those of members after it, and a comma before each member but the first. -/
def writeMembers (text : String) (first : Bool) : List (String × Json) → String
  | [] => text
  | member :: rest =>
    writeMembers (writeMember (if first then text else text ++ ",") member) false rest

def writeMember (text : String) : String × Json → String
  | (key, value) => write (text ++ renderString key ++ ":") value

end

def render (v : Json) : String := write "" v

end Renumber.Json
