import Renumber.Decimal.Binary64

/-! Trees of values from files and from the environment. -/
namespace Renumber

/-- Where a value was given. -/
inductive Origin where
  | environment
  | file (name : String)
  deriving DecidableEq, Repr

/-- A value without parts. -/
inductive Scalar where
  | unit
  | bool (b : Bool)
  | int (n : Int)
  | float (x : Binary64)
  | text (s : String)
  deriving DecidableEq, Repr

/-- A tree of values. Tables into which several sources may be merged have no origin. -/
inductive Tree where
  | leaf (value : Scalar) (origin : Option Origin)
  | list (items : List Tree) (origin : Option Origin)
  | table (entries : List (String × Tree)) (origin : Option Origin)
  deriving Repr, BEq, Inhabited

/-- A step from a value to one of its parts. -/
inductive Step where
  | key (name : String)
  /-- A negative index counts from the end. -/
  | index (i : Int)
  deriving DecidableEq, Repr

namespace Tree

/-- The entries of a table. Other values have none. -/
def entries : Tree → List (String × Tree)
  | .table es _ => es
  | _ => []

def get? (t : Tree) (name : String) : Option Tree := t.entries.lookup name

/-- The part of a tree to which names lead through tables. -/
def at? (t : Tree) : List String → Option Tree
  | [] => some t
  | name :: rest => (t.get? name).bind fun part => part.at? rest

end Tree

end Renumber
