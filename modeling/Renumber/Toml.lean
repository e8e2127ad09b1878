import Renumber.Decimal.Binary64

/-! Values of the TOML data format. -/
namespace Renumber

/-- A TOML value. Dates and times are kept as their text. -/
inductive Toml where
  | bool (b : Bool)
  | int (n : Int)
  | float (x : Binary64)
  | text (s : String)
  | moment (s : String)
  | array (items : List Toml)
  | table (entries : List (String × Toml))
  deriving Repr, BEq, Inhabited

namespace Toml

/-- How a table of a document came to be. This decides how it may be extended. -/
inductive TableKind where
  /-- Named on the way to another table. -/
  | implied
  /-- Opened by its own header. -/
  | header
  /-- Named in a dotted key. -/
  | dotted
  deriving DecidableEq, Repr

/-- A part of a document under construction. -/
inductive Node where
  /-- A value that cannot be extended. -/
  | closed (value : Toml)
  | table (kind : TableKind) (entries : List (String × Node))
  /-- An array of tables, newest first. -/
  | tables (items : List (List (String × Node)))

namespace Node

def replace (key : String) (node : Node) (entries : List (String × Node)) : List (String × Node) :=
  entries.map fun (k, n) => if k = key then (k, node) else (k, n)

/-- Adds a value under a dotted key. A key is set once. Tables without a header of their own are
extended, and count as made by dotted keys from then on. In an array of tables only the parts of the
newest one are extended. -/
def addKey (value : Toml) : List String → List (String × Node) → Option (List (String × Node))
  | [], _ => none
  | [key], entries =>
    match entries.lookup key with
    | none => some (entries ++ [(key, .closed value)])
    | some _ => none
  | key :: path, entries =>
    match entries.lookup key with
    | none => (addKey value path []).map fun inner => entries ++ [(key, .table .dotted inner)]
    | some (.table .header _) => none
    | some (.table _ inner) =>
      (addKey value path inner).map fun inner => replace key (.table .dotted inner) entries
    | some (.tables (newest :: older)) =>
      if path.length < 2 then none
      else
        (addKey value path newest).map fun newest =>
          replace key (.tables (newest :: older)) entries
    | some _ => none

/-- Changes the table that a header names. The header of an array of tables names its newest one. -/
def update (f : List (String × Node) → Option (List (String × Node))) :
    List String → List (String × Node) → Option (List (String × Node))
  | [], entries => f entries
  | key :: path, entries =>
    match entries.lookup key with
    | none => (update f path []).map fun inner => entries ++ [(key, .table .implied inner)]
    | some (.table kind inner) =>
      (update f path inner).map fun inner => replace key (.table kind inner) entries
    | some (.tables (newest :: older)) =>
      (update f path newest).map fun newest => replace key (.tables (newest :: older)) entries
    | some _ => none

/-- Opens the table of a header. Each table has at most one header. -/
def openTable (key : String) (entries : List (String × Node)) : Option (List (String × Node)) :=
  match entries.lookup key with
  | none => some (entries ++ [(key, .table .header [])])
  | some (.table .implied inner) => some (replace key (.table .header inner) entries)
  | some _ => none

def openItem (key : String) (entries : List (String × Node)) : Option (List (String × Node)) :=
  match entries.lookup key with
  | none => some (entries ++ [(key, .tables [[]])])
  | some (.tables items) => some (replace key (.tables ([] :: items)) entries)
  | some _ => none

mutual

def toValue : Node → Toml
  | .closed value => value
  | .table _ entries => .table (toEntries entries)
  | .tables items => .array (toItems items).reverse

def toEntries : List (String × Node) → List (String × Toml)
  | [] => []
  | entry :: rest => toEntry entry :: toEntries rest

def toEntry : String × Node → String × Toml
  | (key, node) => (key, toValue node)

def toItems : List (List (String × Node)) → List Toml
  | [] => []
  | entries :: rest => .table (toEntries entries) :: toItems rest

end

end Node

end Toml

end Renumber
