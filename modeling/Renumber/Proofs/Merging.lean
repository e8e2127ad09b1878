import Renumber.Proofs.TreeParts
import Renumber.Settings.Merge

/-! Values that are set in a tree. A value is found at its path, laid over what was there, and all
that lies off the path stays as it was. -/
namespace Renumber.Tree

variable {t value : Tree} {f : Tree → Tree} {steps : List Step} {names : List String}

/-! ### Changes along a path -/

theorem get?_atKey (name : String) (f : Tree → Tree) (t : Tree) (other : String) :
    (t.atKey name f).get? other =
      if other = name then some (f ((t.get? name).getD absent)) else t.get? other :=
  Entries.lookup_set name _ t.entries other

theorem at?_getD_absent (part : Option Tree) (name : String) (rest : List String) :
    (part.getD absent).at? (name :: rest) = part.bind fun part => part.at? (name :: rest) := by
  cases part <;> rfl

theorem at?_update_of_diverge (h : Diverge steps names) (f : Tree → Tree) (t : Tree) :
    (t.update f steps).at? names = t.at? names := by
  induction h generalizing t with
  | here hne steps names => rw [update, at?, at?, get?_atKey, if_neg hne]
  | @after name steps names h ih =>
    rw [update, at?, at?, get?_atKey, if_pos rfl, Option.bind_some, ih]
    cases h <;> exact at?_getD_absent ..

theorem at?_update (names : List String) (f : Tree → Tree) (t : Tree) :
    (t.update f (names.map .key)).at? names = some (f ((t.at? names).getD absent)) := by
  induction names generalizing t with
  | nil => rfl
  | cons name rest ih =>
    rw [List.map_cons, update, at?, at?, get?_atKey, if_pos rfl, Option.bind_some, ih]
    cases t.get? name with
    | some part => rfl
    | none => cases rest <;> rfl

theorem update_append (f : Tree → Tree) (steps rest : List Step) (t : Tree) :
    t.update f (steps ++ rest) = t.update (update f rest) steps := by
  induction steps generalizing t with
  | nil => rfl
  | cons step steps ih =>
    have hinner : update f (steps ++ rest) = update (update f rest) steps := funext ih
    cases step with
    | key name => exact congrArg (t.atKey name) hinner
    | index i => exact congrArg (t.atIndex i) hinner

/-! ### Values over older ones -/

/-- The parts of a merged table. -/
theorem lookup_entriesOver {es : List (String × Tree)} (h : (es.map Prod.fst).Nodup)
    (old : List (String × Tree)) (name : String) : (entriesOver es old).lookup name =
      ((es.lookup name).map fun value => value.overlay ((old.lookup name).getD absent)).or
        (old.lookup name) := by
  induction es generalizing old with
  | nil => rfl
  | cons e rest ih =>
    obtain ⟨key, value⟩ := e
    rw [List.map_cons, List.nodup_cons] at h
    rw [entriesOver, ih h.2, entryOver, Entries.lookup_set, List.lookup_cons]
    by_cases hname : name = key
    · subst hname
      rw [Entries.lookup_eq_none h.1, beq_self_eq_true, if_pos rfl]
      rfl
    · rw [beq_false_of_ne hname, if_neg hname]

/-- All parts of a value are found in what it was laid over. -/
theorem at?_overlay (hkeyed : value.Keyed) {part : Tree} (hpart : value.at? names = some part)
    (old : Tree) : Alike ((value.overlay old).at? names) part := by
  induction names generalizing value old with
  | nil =>
    obtain rfl : value = part := Option.some.inj hpart
    cases value with
    | leaf | list => exact Or.inl rfl
    | table entries origin => exact Or.inr ⟨_, _, _, _, rfl, rfl⟩
  | cons name rest ih =>
    obtain ⟨inner, hinner, hrest⟩ := Option.bind_eq_some_iff.mp hpart
    cases value with
    | leaf | list => cases hinner
    | table entries origin =>
      have hover : ((Tree.table entries origin).overlay old).get? name =
          some (inner.overlay ((old.get? name).getD absent)) := by
        refine (lookup_entriesOver hkeyed.nodup old.entries name).trans ?_
        rw [show (Tree.table entries origin).entries.lookup name = some inner from hinner]
        rfl
      rw [at?, hover, Option.bind_some]
      exact ih (hkeyed.get? hinner) hrest _

/-- What a table does not have is as it was in the value under it. -/
theorem get?_overlay_of_missing {entries : List (String × Tree)} {origin : Option Origin}
    {name : String} (hnodup : (entries.map Prod.fst).Nodup) (hnone : entries.lookup name = none)
    (old : Tree) : ((Tree.table entries origin).overlay old).get? name = old.get? name := by
  refine (lookup_entriesOver hnodup old.entries name).trans ?_
  rw [hnone]
  rfl

/-! ### Tables with one entry for each name -/

theorem Keyed.getD_absent (h : t.Keyed) (name : String) : ((t.get? name).getD absent).Keyed := by
  cases hpart : t.get? name with
  | none => exact .leaf _ _
  | some part => exact h.get? hpart

theorem Keyed.set_entry {entries : List (String × Tree)} {origin : Option Origin}
    (h : (Tree.table entries origin).Keyed) (name : String) (hvalue : value.Keyed)
    (origin' : Option Origin) : (Tree.table (Entries.set name value entries) origin').Keyed := by
  refine .table (Entries.nodup_set h.nodup name value) (fun entry hentry => ?_) origin'
  rcases Entries.mem_set hentry with rfl | hentry
  · exact hvalue
  · exact h.parts entry hentry

/-- A tree as a table. -/
theorem Keyed.table_entries (h : t.Keyed) (origin : Option Origin) :
    (Tree.table t.entries origin).Keyed :=
  .table h.nodup h.parts origin

theorem Keyed.update (h : t.Keyed) (hf : ∀ part : Tree, part.Keyed → (f part).Keyed) :
    (t.update f steps).Keyed := by
  induction steps generalizing t with
  | nil => exact hf t h
  | cons step rest ih =>
    cases step with
    | key name => exact (h.table_entries none).set_entry name (ih (h.getD_absent name)) _
    | index i =>
      by_cases hi : 0 ≤ i
      · simp only [Tree.update, atIndex, if_pos hi]
        exact .list _ _
      · simp only [Tree.update, atIndex, if_neg hi]
        exact .list _ _

mutual

theorem Keyed.overlay {old : Tree} (h : old.Keyed) : ∀ value : Tree, (value.overlay old).Keyed
  | .leaf value origin => .leaf value origin
  | .list items origin => .list items origin
  | .table es _ => Keyed.entriesOver (h.table_entries none) es _

theorem Keyed.entriesOver {old : List (String × Tree)} {origin : Option Origin}
    (h : (Tree.table old origin).Keyed) : ∀ (es : List (String × Tree)) (origin' : Option Origin),
      (Tree.table (Tree.entriesOver es old) origin').Keyed
  | [], origin' => h.table_entries origin'
  | (name, value) :: rest, origin' => by
    have hpart : ((old.lookup name).getD absent).Keyed := h.getD_absent name
    exact Keyed.entriesOver (h.set_entry name (Keyed.overlay hpart value) none) rest origin'

end

/-! ### Paths of keys -/

theorem isNameChar_ne {c : Char} (h : isNameChar c) : c ≠ '.' ∧ c ≠ '[' := by
  constructor <;>
  · rintro rfl
    exact absurd h (by decide)

/-- The name that a path begins with goes on through the characters of names. -/
theorem readPath_name_append {cs : List Char} (h : ∀ c ∈ cs, isNameChar c) (acc tail : List Char) :
    readPath (.name acc) (cs ++ tail) = readPath (.name (cs.reverse ++ acc)) tail := by
  induction cs generalizing acc with
  | nil => rfl
  | cons c cs ih =>
    rw [List.forall_mem_cons] at h
    rw [List.cons_append, readPath, if_pos h.1, ih h.2, List.reverse_cons, List.append_assoc]
    rfl

/-- Names between points are read as the steps of a path. -/
theorem readPath_intercalate {names : List String} (hne : names ≠ [])
    (h : ∀ name ∈ names, name ≠ "" ∧ ∀ c ∈ name.toList, isNameChar c) :
    readPath (.name []) (['.'].intercalate (names.map String.toList)) = some (names.map .key) := by
  induction names with
  | nil => exact absurd rfl hne
  | cons name rest ih =>
    rw [List.forall_mem_cons] at h
    obtain ⟨⟨hname, hchars⟩, hrest⟩ := h
    have hacc : name.toList.reverse ++ [] ≠ [] := by
      rw [List.append_nil, ne_eq, List.reverse_eq_nil_iff, String.toList_eq_nil_iff]
      exact hname
    have hkey : String.ofList (name.toList.reverse ++ []).reverse = name := by
      rw [List.append_nil, List.reverse_reverse, String.ofList_toList]
    rcases eq_or_ne rest [] with rfl | hne
    · have hread := readPath_name_append hchars [] []
      rw [List.append_nil] at hread
      rw [List.map_singleton, List.intercalate_singleton, hread, readPath, if_neg hacc, hkey]
      rfl
    · rw [List.map_cons, List.intercalate_cons_of_ne_nil (mt List.map_eq_nil_iff.mp hne),
        List.append_assoc, readPath_name_append hchars, List.singleton_append, readPath,
        if_neg (by decide), if_neg hacc, if_pos rfl, ih hne hrest, hkey]
      rfl

/-- Up to the first point or bracket, a path is one name. -/
theorem head?_readPath {acc cs : List Char} (hbracket : '[' ∉ cs)
    (h : readPath (.name acc) cs = some steps) :
    steps.head? = some (.key (String.ofList (acc.reverse ++ cs.takeWhile (· ≠ '.')))) := by
  induction cs generalizing acc with
  | nil =>
    rw [readPath, Option.ite_none_left_eq_some] at h
    rw [← Option.some.inj h.2, List.takeWhile_nil, List.append_nil]
    rfl
  | cons c cs ih =>
    rw [List.mem_cons, not_or] at hbracket
    rw [readPath] at h
    split at h
    · next hname =>
      rw [ih hbracket.2 h, List.takeWhile_cons_of_pos (by simpa using (isNameChar_ne hname).1),
        List.reverse_cons, List.append_assoc]
      rfl
    split at h
    · cases h
    split at h
    · next hpoint =>
      subst hpoint
      obtain ⟨rest, -, rfl⟩ := Option.map_eq_some_iff.mp h
      rw [List.takeWhile_cons_of_neg (by simp), List.append_nil]
      rfl
    split at h
    · next hopen => exact absurd hopen.symm hbracket.1
    · cases h

/-- A path begins with a name. -/
theorem exists_readPath_eq_cons {acc cs : List Char} (h : readPath (.name acc) cs = some steps) :
    ∃ name rest, steps = .key name :: rest := by
  induction cs generalizing acc with
  | nil =>
    rw [readPath, Option.ite_none_left_eq_some] at h
    exact ⟨_, [], (Option.some.inj h.2).symm⟩
  | cons c cs ih =>
    rw [readPath] at h
    split at h
    · exact ih h
    split at h
    · cases h
    split at h
    · obtain ⟨rest, -, heq⟩ := Option.map_eq_some_iff.mp h
      exact ⟨_, rest, heq.symm⟩
    split at h
    · obtain ⟨rest, -, heq⟩ := Option.map_eq_some_iff.mp h
      exact ⟨_, rest, heq.symm⟩
    · cases h

theorem exists_path_eq_cons (key : String) : ∃ name rest, path key = .key name :: rest := by
  rw [path]
  cases h : readPath (.name []) key.toList with
  | none => exact ⟨key, [], rfl⟩
  | some steps => exact exists_readPath_eq_cons h

end Renumber.Tree
