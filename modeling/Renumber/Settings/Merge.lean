import Renumber.Decimal.Digits
import Renumber.Entries
import Renumber.Settings.Tree

/-! Values that are set in a tree under keys. A key is a path of names and indices. -/
namespace Renumber.Tree

/-- The place of a value that was not given. -/
def absent : Tree := .leaf .unit none

/-- The origin of a table. Other values count as tables that are made anew. -/
def tableOrigin : Tree → Option Origin
  | .table _ origin => origin
  | _ => none

/-- The items of a list. Other values have none. -/
def items : Tree → List Tree
  | .list ts _ => ts
  | _ => []

/-- The tree with the part under a name changed. What is no table becomes one. -/
def atKey (name : String) (f : Tree → Tree) (t : Tree) : Tree :=
  .table (Entries.set name (f ((t.get? name).getD absent)) t.entries) t.tableOrigin

/-- The tree with one item changed. What is no list becomes one, and missing items are filled in. -/
def atIndex (i : Int) (f : Tree → Tree) (t : Tree) : Tree :=
  let old := t.items
  let origin := match t with
    | .list _ origin => origin
    | _ => none
  if 0 ≤ i then
    let n := i.toNat
    let filled := old ++ List.replicate (n + 1 - old.length) absent
    .list (filled.modify n f) origin
  else
    let filled := List.replicate ((-i).toNat - old.length) absent ++ old
    .list (filled.modify (filled.length - (-i).toNat) f) origin

def update (f : Tree → Tree) : List Step → Tree → Tree
  | [], t => f t
  | .key name :: rest, t => t.atKey name (update f rest)
  | .index i :: rest, t => t.atIndex i (update f rest)

mutual

/-- Lays a value over an older one. Tables are merged entry by entry into the older table or into a
new one, and anything else replaces what was there. -/
def overlay (value old : Tree) : Tree :=
  match value with
  | .table es _ => .table (entriesOver es old.entries) old.tableOrigin
  | .leaf s origin => .leaf s origin
  | .list ts origin => .list ts origin

def entriesOver (es old : List (String × Tree)) : List (String × Tree) :=
  match es with
  | [] => old
  | e :: rest => entriesOver rest (entryOver e old)

def entryOver (e : String × Tree) (old : List (String × Tree)) : List (String × Tree) :=
  match e with
  | (name, value) => Entries.set name (overlay value ((old.lookup name).getD absent)) old

end

def isNameChar (c : Char) : Bool := c.isAlphanum || c = '_' || c = '-'

/-- What a path is expected to go on with. -/
inductive PathState where
  | name (acc : List Char)
  | index (acc : List Char)
  | done

/-- An index between brackets, which blanks may surround. It fits into 64 bits with sign. -/
def index? (cs : List Char) : Option Int :=
  let isBlank (c : Char) : Bool := c = ' ' || c = '\t'
  let body := ((cs.dropWhile isBlank).reverse.dropWhile isBlank).reverse
  let i := match body with
    | '-' :: digits => (Digits.nat? digits).map fun n => -(n : Int)
    | digits => (Digits.nat? digits).map Int.ofNat
  i.filter Digits.isInt64

def readPath : PathState → List Char → Option (List Step)
  | .name acc, [] => if acc = [] then none else some [.key (String.ofList acc.reverse)]
  | .index _, [] => none
  | .done, [] => some []
  | .name acc, c :: cs =>
    if isNameChar c then readPath (.name (c :: acc)) cs
    else if acc = [] then none
    else if c = '.' then (readPath (.name []) cs).map (.key (String.ofList acc.reverse) :: ·)
    else if c = '[' then
      (readPath (.index []) cs).map (.key (String.ofList acc.reverse) :: ·)
    else none
  | .index acc, c :: cs =>
    if c = ']' then
      (index? acc.reverse).bind fun i => (readPath .done cs).map (.index i :: ·)
    else readPath (.index (c :: acc)) cs
  | .done, c :: cs =>
    if c = '.' then readPath (.name []) cs
    else if c = '[' then readPath (.index []) cs
    else none

/-- The steps that a key names: names divided by points, and indices in brackets. A key of any other
form is one name. -/
def path (key : String) : List Step :=
  (readPath (.name []) key.toList).getD [.key key]

/-- Lays a value over what is at its key. -/
def set (t : Tree) (key : String) (value : Tree) : Tree := t.update value.overlay (path key)

end Renumber.Tree
