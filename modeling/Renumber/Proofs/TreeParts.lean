import Renumber.Proofs.Entries
import Renumber.Settings.Tree

/-! Parts of a tree, which names lead to through tables. -/
namespace Renumber.Tree

variable {t : Tree}

theorem at?_singleton (t : Tree) (name : String) : t.at? [name] = t.get? name :=
  Option.bind_fun_some (t.get? name)

theorem at?_append (t : Tree) (names rest : List String) :
    t.at? (names ++ rest) = (t.at? names).bind (·.at? rest) := by
  induction names generalizing t with
  | nil => rfl
  | cons name names ih =>
    rw [List.cons_append, at?, at?, Option.bind_assoc]
    exact congrArg (t.get? name).bind (funext fun part => ih part)

/-- What the tree has under a name is a table. -/
def HasTable (t : Tree) (name : String) : Prop :=
  ∀ part, t.get? name = some part → ∃ entries origin, part = .table entries origin

/-- What is found is the part, or a table if the part is one. -/
def Alike (found : Option Tree) (part : Tree) : Prop :=
  found = some part ∨
    ∃ entries origin entries' origin', part = .table entries origin ∧
      found = some (.table entries' origin')

theorem Alike.eq_of_leaf {found : Option Tree} {value : Scalar} {origin : Option Origin}
    (h : Alike found (.leaf value origin)) : found = some (.leaf value origin) := by
  rcases h with h | ⟨_, _, _, _, htable, _⟩
  · exact h
  · cases htable

theorem Alike.exists_table {found : Option Tree} {entries : List (String × Tree)}
    {origin : Option Origin} (h : Alike found (.table entries origin)) :
    ∃ entries' origin', found = some (.table entries' origin') := by
  rcases h with h | ⟨_, _, entries', origin', _, h⟩
  · exact ⟨entries, origin, h⟩
  · exact ⟨entries', origin', h⟩

/-- Steps that leave the path along names. -/
inductive Diverge : List Step → List String → Prop where
  | here {name other : String} (h : other ≠ name) (steps : List Step) (names : List String) :
      Diverge (.key name :: steps) (other :: names)
  | after (name : String) {steps : List Step} {names : List String} (h : Diverge steps names) :
      Diverge (.key name :: steps) (name :: names)

theorem not_diverge_map_key (names : List String) : ¬Diverge (names.map .key) names := by
  intro h
  induction names with
  | nil => cases h
  | cons name rest ih =>
    cases h with
    | here hne => exact hne rfl
    | after _ h => exact ih h

/-! ### Tables with one entry for each name -/

/-- No table that names lead to has two entries with one name. -/
inductive Keyed : Tree → Prop where
  | leaf (value : Scalar) (origin : Option Origin) : Keyed (.leaf value origin)
  | list (items : List Tree) (origin : Option Origin) : Keyed (.list items origin)
  | table {entries : List (String × Tree)} (nodup : (entries.map Prod.fst).Nodup)
      (parts : ∀ entry ∈ entries, Keyed entry.2) (origin : Option Origin) :
      Keyed (.table entries origin)

theorem Keyed.nodup (h : t.Keyed) : (t.entries.map Prod.fst).Nodup := by
  cases h with
  | leaf | list => exact List.nodup_nil
  | table nodup => exact nodup

theorem Keyed.parts (h : t.Keyed) : ∀ entry ∈ t.entries, entry.2.Keyed := by
  cases h with
  | leaf | list => exact fun _ hentry => absurd hentry List.not_mem_nil
  | table _ parts => exact parts

theorem Keyed.get? (h : t.Keyed) {name : String} {part : Tree} (hpart : t.get? name = some part) :
    part.Keyed :=
  h.parts _ ((Entries.lookup_eq_some_iff_mem h.nodup).mp hpart)

theorem Keyed.empty (origin : Option Origin) : (Tree.table [] origin).Keyed :=
  @Keyed.table [] List.nodup_nil (fun _ hentry => absurd hentry List.not_mem_nil) origin

end Renumber.Tree
