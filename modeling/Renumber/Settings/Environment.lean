import Renumber.Decimal.Reader
import Renumber.Entries
import Renumber.Settings.Tree
import Renumber.Text.Lowercase

/-! Settings that are given as environment variables. -/
namespace Renumber.Environment

def nameStart : String := "relay_"

def dotted : List Char → List Char
  | '_' :: '_' :: cs => '.' :: dotted cs
  | c :: cs => c :: dotted cs
  | [] => []

/-- The key of the setting that a variable names: the rest of its name in lower case, with points for
double underscores. -/
def key? (name : String) : Option String :=
  let cs := (Text.lower name).toList
  if nameStart.toList.isPrefixOf cs then
    some (String.ofList (dotted (cs.drop nameStart.length)))
  else none

/-- The value of a variable: a truth value, an integer of 64 bits, a floating-point number or else a
text. -/
def value (text : String) : Scalar :=
  if Text.lower text = "true" then .bool true
  else if Text.lower text = "false" then .bool false
  else
    match (Digits.int? text.toList).filter Digits.isInt64 with
    | some n => .int n
    | none =>
      match Binary64.parse? text with
      | some x => .float x
      | none => .text text

/-- The values of variables with their keys. Of equal keys the last one stays. -/
def source (vars : List (String × String)) : List (String × Tree) :=
  vars.foldl (fun entries (name, text) =>
    match key? name with
    | some key => Entries.set key (.leaf (value text) (some .environment)) entries
    | none => entries) []

end Renumber.Environment
