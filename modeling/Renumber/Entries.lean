/-! Entries under keys. -/
namespace Renumber.Entries

variable {κ α : Type} [DecidableEq κ]

/-- The entries with one set. An entry with its key is replaced in its place, and a new one comes
last. -/
def set (key : κ) (value : α) : List (κ × α) → List (κ × α)
  | [] => [(key, value)]
  | (k, v) :: rest => if k = key then (key, value) :: rest else (k, v) :: set key value rest

end Renumber.Entries
