import Renumber.Decimal.Binary64

/-! Values of the JSON data format. -/
namespace Renumber

/-- A JSON value. Numbers that are written as integers and fit into 64 bits stay exact. -/
inductive Json where
  | null
  | bool (b : Bool)
  | int (n : Int)
  | float (x : Binary64)
  | str (s : String)
  | arr (items : List Json)
  | obj (members : List (String × Json))
  deriving Repr, BEq, Inhabited

namespace Json

def nat (n : Nat) : Json := .int n

def optStr : Option String → Json
  | none => .null
  | some s => .str s

def get? (key : String) : Json → Option Json
  | .obj members => members.lookup key
  | _ => none

/-- The members with the key set to the value. The keys ascend by code point. -/
def insert (key : String) (value : Json) : List (String × Json) → List (String × Json)
  | [] => [(key, value)]
  | (k, v) :: rest =>
    if key < k then (key, value) :: (k, v) :: rest
    else if key = k then (key, value) :: rest
    else (k, v) :: insert key value rest

end Json

end Renumber
