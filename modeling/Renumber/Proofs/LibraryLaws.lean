import Renumber.Proofs.RecordParts
import Renumber.Proofs.TreeParts
import Renumber.Settings.Environment
import Renumber.Settings.Library

/-! What a library of settings is documented to do, and how it lays sources over each other. -/
namespace Renumber

open Renumber.Tree (Alike Diverge)

/-- The name can stand between the points of a key. -/
def IsPlainName (name : String) : Prop :=
  name ≠ "" ∧ name.toList.all fun c => c.isAlphanum || c = '_' || c = '-'

instance (name : String) : Decidable (IsPlainName name) := inferInstanceAs (Decidable (_ ∧ _))

namespace ConfigLibrary

variable (lib : ConfigLibrary)

/-- The tree with the values of a source set one by one. -/
def layer (t : Tree) (source : List (String × Tree)) : Tree :=
  source.foldl (fun t (key, value) => lib.set t key value) t

/-- How a part of the settings of logging is converted. -/
def readLogPart : (p : LogSettings.Part) → Tree → Except lib.Error (LogSettings.parts.Value p)
  | .level => lib.readText "logging.level"
  | .format => lib.readText "logging.format"
  | .filePath => lib.readOptText "logging.file_path"

/-- How a part of the settings is converted. -/
def readPart : (p : Settings.Part) → Tree → Except lib.Error (Settings.parts.Value p)
  | .sequenceHistory => lib.readUInt64 "sequence_history"
  | .maxStreams => lib.readUInt64 "max_streams"
  | .logging => lib.readLogging

/-- What the operations of a library are documented to do. -/
structure Lawful : Prop where
  /-- Sources are laid over each other in the order in which they are given. -/
  build_nil (files : lib.Files) (vars : List (String × String)) :
    lib.build files vars [] = .ok (.table [] none)
  build_concat (files : lib.Files) (vars : List (String × String)) (sources : List Source)
    (source : Source) : lib.build files vars (sources ++ [source]) = do
      let t ← lib.build files vars sources
      let entries ← lib.collect files vars source
      pure (lib.layer t entries)
  /-- Variables are collected under their names in lower case, without `relay_` and with points for
  double underscores, in whatever order. -/
  collect_environment (files : lib.Files) (vars : List (String × String)) :
    ∃ entries, lib.collect files vars .environment = .ok entries ∧
      (entries.map Prod.fst).Nodup ∧
      (∀ entry ∈ entries, ∃ var ∈ vars, Environment.key? var.1 = some entry.1 ∧
        entry.2 = .leaf (lib.value var.2) (some .environment)) ∧
      ∀ var ∈ vars, ∀ key, Environment.key? var.1 = some key → key ∈ entries.map Prod.fst
  /-- Points divide the names of a path. -/
  path_names {names : List String} : names ≠ [] → (∀ name ∈ names, IsPlainName name) →
    lib.path (".".intercalate names) = names.map .key
  /-- A key without brackets is a single name, or its path begins before its first point. -/
  path_first {key : String} : '[' ∉ key.toList → ∃ name steps, lib.path key = .key name :: steps ∧
    (name = key ∨ name.toList = key.toList.takeWhile (· ≠ '.'))
  /-- A value that is set is found at its path, with all that is in it. Tables are merged. -/
  at?_set {key : String} {value part : Tree} {names rest : List String} (t : Tree) :
    lib.path key = names.map .key → value.Keyed → value.at? rest = some part →
      Alike ((lib.set t key value).at? (names ++ rest)) part
  /-- What a table that is set does not have stays as it was. -/
  at?_set_of_missing {key name : String} {value : Tree} {names : List String} (t : Tree)
    {entries : List (String × Tree)} {origin : Option Origin} :
    lib.path key = names.map .key → value = .table entries origin → value.Keyed →
      entries.lookup name = none →
        (lib.set t key value).at? (names ++ [name]) = t.at? (names ++ [name])
  /-- What is off the path of a value that is set stays as it was. -/
  at?_set_of_diverge {key : String} {names : List String} (t value : Tree) :
    Diverge (lib.path key) names → (lib.set t key value).at? names = t.at? names
  /-- There are tables on the way to a value that is set. -/
  at?_set_on_way {key name : String} {names rest : List String} (t value : Tree) :
    lib.path key = (names ++ name :: rest).map .key →
      ∃ entries origin, (lib.set t key value).at? names = some (.table entries origin)
  keyed_set {t value : Tree} (key : String) : t.Keyed → value.Keyed → (lib.set t key value).Keyed
  /-- The whole is a table. -/
  exists_set_eq (t : Tree) (key : String) (value : Tree) :
    ∃ entries origin, lib.set t key value = .table entries origin
  /-- Tables have no scalar values. -/
  readUInt64_table (key : String) (entries : List (String × Tree)) (origin : Option Origin)
    (n : UInt64) : lib.readUInt64 key (.table entries origin) ≠ .ok n
  readText_table (key : String) (entries : List (String × Tree)) (origin : Option Origin)
    (s : String) : lib.readText key (.table entries origin) ≠ .ok s
  readOptText_table (key : String) (entries : List (String × Tree)) (origin : Option Origin)
    (s : Option String) : lib.readOptText key (.table entries origin) ≠ .ok s
  /-- Settings are read from tables field by field. -/
  readLogging_table (origin : Option Origin) : LogSettings.parts.Derives lib.readLogPart {}
    fun entries => lib.readLogging (.table entries origin)
  readSettings_table (origin : Option Origin) : Settings.parts.Derives lib.readPart {}
    fun entries => lib.readSettings (.table entries origin)

namespace Lawful

variable {lib} (h : lib.Lawful) {t : Tree} {source : List (String × Tree)} {names : List String}
include h

/-- A source with no key along the names leaves what is there. -/
theorem at?_layer_of_diverge (hsource : ∀ entry ∈ source, Diverge (lib.path entry.1) names)
    (t : Tree) : (lib.layer t source).at? names = t.at? names := by
  induction source generalizing t with
  | nil => rfl
  | cons entry rest ih =>
    rw [List.forall_mem_cons] at hsource
    exact (ih hsource.2 _).trans (h.at?_set_of_diverge t entry.2 hsource.1)

/-- If all keys of a source but one lead away from the names, what is there in the end is what this
one key sets. -/
theorem exists_at?_layer_eq (hnodup : (source.map Prod.fst).Nodup) {key : String} {value : Tree}
    (hentry : (key, value) ∈ source)
    (hothers : ∀ entry ∈ source, entry.1 ≠ key → Diverge (lib.path entry.1) names) (t : Tree) :
    ∃ t' : Tree, t'.at? names = t.at? names ∧
      (lib.layer t source).at? names = (lib.set t' key value).at? names := by
  obtain ⟨before, after, rfl⟩ := List.append_of_mem hentry
  rw [List.map_append, List.map_cons, List.nodup_append] at hnodup
  have hafter : ∀ entry ∈ after, Diverge (lib.path entry.1) names := by
    intro entry hmem
    refine hothers entry (List.mem_append_right _ (List.mem_cons_of_mem _ hmem)) fun heq => ?_
    have hkey : entry.1 ∈ after.map Prod.fst := List.mem_map_of_mem hmem
    exact (List.nodup_cons.mp hnodup.2.1).1 (heq ▸ hkey)
  have hbefore : ∀ entry ∈ before, Diverge (lib.path entry.1) names := by
    intro entry hmem
    refine hothers entry (List.mem_append_left _ hmem) ?_
    exact hnodup.2.2 _ (List.mem_map_of_mem hmem) _ List.mem_cons_self
  refine ⟨lib.layer t before, at?_layer_of_diverge h hbefore t, ?_⟩
  have hlayer : lib.layer t (before ++ (key, value) :: after) =
      lib.layer (lib.set (lib.layer t before) key value) after := by
    rw [layer, List.foldl_append]
    rfl
  rw [hlayer]
  exact at?_layer_of_diverge h hafter _

/-- Keys that lead below a name or away from it leave a table there. -/
theorem hasTable_layer {name : String} (ht : t.HasTable name)
    (haim : ∀ entry ∈ source, (∃ part, lib.path entry.1 = [.key name, .key part]) ∨
      Diverge (lib.path entry.1) [name]) : (lib.layer t source).HasTable name := by
  induction source generalizing t with
  | nil => exact ht
  | cons entry rest ih =>
    rw [List.forall_mem_cons] at haim
    refine ih (fun part hpart => ?_) haim.2
    rw [← Tree.at?_singleton] at hpart
    rcases haim.1 with ⟨inner, hpath⟩ | hdiverge
    · obtain ⟨entries, origin, htable⟩ :=
        @at?_set_on_way _ h entry.1 inner [name] [] t entry.2 hpath
      exact ⟨entries, origin, Option.some.inj (hpart.symm.trans htable)⟩
    · rw [h.at?_set_of_diverge t entry.2 hdiverge, Tree.at?_singleton] at hpart
      exact ht part hpart

theorem keyed_layer (ht : t.Keyed) (hsource : ∀ entry ∈ source, entry.2.Keyed) :
    (lib.layer t source).Keyed := by
  induction source generalizing t with
  | nil => exact ht
  | cons entry rest ih =>
    rw [List.forall_mem_cons] at hsource
    exact ih (h.keyed_set entry.1 ht hsource.1) hsource.2

theorem exists_layer_eq (ht : ∃ entries origin, t = .table entries origin) :
    ∃ entries origin, lib.layer t source = .table entries origin := by
  induction source generalizing t with
  | nil => exact ht
  | cons entry rest ih => exact ih (h.exists_set_eq t entry.1 entry.2)

end Lawful

end ConfigLibrary

end Renumber
