import Renumber.Proofs.JsonText
import Renumber.Proofs.Leaves
import Renumber.Proofs.Merging
import Renumber.Settings.Load
import Mathlib.Data.List.Basic

/-! The library of settings in a working folder has the laws of such libraries. -/
namespace Renumber

/-! ### Paths -/

namespace Tree

theorem path_names {names : List String} (hne : names ≠ [])
    (h : ∀ name ∈ names, IsPlainName name) : path (".".intercalate names) = names.map .key := by
  have hread := readPath_intercalate hne fun name hname =>
    ⟨(h name hname).1, List.all_eq_true.mp (h name hname).2⟩
  rw [path, String.toList_intercalate, show ".".toList = ['.'] from rfl, hread, Option.getD_some]

theorem path_first {key : String} (hbracket : '[' ∉ key.toList) :
    ∃ name steps, path key = .key name :: steps ∧
      (name = key ∨ name.toList = key.toList.takeWhile (· ≠ '.')) := by
  rw [path]
  cases h : readPath (.name []) key.toList with
  | none => exact ⟨key, [], rfl, Or.inl rfl⟩
  | some steps =>
    obtain ⟨rest, rfl⟩ := List.head?_eq_some_iff.mp (head?_readPath hbracket h)
    exact ⟨_, rest, rfl, Or.inr String.toList_ofList⟩

/-! ### Values under keys -/

variable {t value : Tree} {key : String} {names : List String}

/-- Below the path of a key, there is what the value has, over what was there. -/
theorem at?_set (hpath : path key = names.map .key) (t value : Tree) (rest : List String) :
    (t.set key value).at? (names ++ rest) =
      (value.overlay ((t.at? names).getD absent)).at? rest := by
  rw [set, hpath, at?_append, at?_update, Option.bind_some]

theorem at?_set_on_way {name : String} {rest : List String}
    (hpath : path key = (names ++ name :: rest).map .key) (t value : Tree) :
    ∃ entries origin, (t.set key value).at? names = some (.table entries origin) := by
  rw [set, hpath, List.map_append, update_append, at?_update]
  exact ⟨_, _, rfl⟩

theorem exists_set_eq (t : Tree) (key : String) (value : Tree) :
    ∃ entries origin, t.set key value = .table entries origin := by
  obtain ⟨name, rest, hpath⟩ := exists_path_eq_cons key
  rw [set, hpath]
  exact ⟨_, _, rfl⟩

end Tree

/-! ### Variables -/

namespace Environment

/-- The entries with those of a variable, if it is one of the program. -/
def put (entries : List (String × Tree)) (var : String × String) : List (String × Tree) :=
  match key? var.1 with
  | some key => Entries.set key (.leaf (value var.2) (some .environment)) entries
  | none => entries

variable {vars : List (String × String)} {entries : List (String × Tree)}

theorem nodup_foldl_put (h : (entries.map Prod.fst).Nodup) :
    ((vars.foldl put entries).map Prod.fst).Nodup := by
  induction vars generalizing entries with
  | nil => exact h
  | cons var vars ih =>
    refine ih ?_
    rw [put]
    cases key? var.1 with
    | some key => exact Entries.nodup_set h key _
    | none => exact h

theorem mem_foldl_put {entry : String × Tree} (h : entry ∈ vars.foldl put entries) :
    (∃ var ∈ vars, key? var.1 = some entry.1 ∧
      entry.2 = .leaf (value var.2) (some .environment)) ∨ entry ∈ entries := by
  induction vars generalizing entries with
  | nil => exact Or.inr h
  | cons var vars ih =>
    rcases ih h with ⟨other, hother, hentry⟩ | hput
    · exact Or.inl ⟨other, List.mem_cons_of_mem _ hother, hentry⟩
    · rw [put] at hput
      cases hkey : key? var.1 with
      | none =>
        rw [hkey] at hput
        exact Or.inr hput
      | some key =>
        rw [hkey] at hput
        rcases Entries.mem_set hput with rfl | hput
        · exact Or.inl ⟨var, List.mem_cons_self, hkey, rfl⟩
        · exact Or.inr hput

theorem mem_keys_foldl_put {key : String}
    (h : (∃ var ∈ vars, key? var.1 = some key) ∨ key ∈ entries.map Prod.fst) :
    key ∈ (vars.foldl put entries).map Prod.fst := by
  induction vars generalizing entries with
  | nil =>
    rcases h with ⟨var, hvar, -⟩ | h
    · exact absurd hvar List.not_mem_nil
    · exact h
  | cons var vars ih =>
    refine ih ?_
    rw [put]
    rcases h with ⟨other, hother, hkey⟩ | h
    · rcases List.mem_cons.mp hother with rfl | hother
      · rw [hkey]
        exact Or.inr (Entries.mem_keys_set_iff.mpr (Or.inl rfl))
      · exact Or.inl ⟨other, hother, hkey⟩
    · cases key? var.1 with
      | some own => exact Or.inr (Entries.mem_keys_set_iff.mpr (Or.inr h))
      | none => exact Or.inr h

end Environment

/-! ### Readers -/

open ConfigLibrary in
theorem LogSettings.reads_loaders : parts.Reads workplace.readLogPart fun s (name, t) =>
    match loaders.lookup name with
    | some put => put ("logging" ++ "." ++ name) s t
    | none => .ok s where
  known s p value := by cases p <;> rfl
  unknown s name value hname := by
    have hnone : loaders.lookup name = none := parts.lookup_eq_none_of_ne rfl hname
    simp only [hnone]

open ConfigLibrary in
theorem Settings.reads_loaders : parts.Reads workplace.readPart fun s (name, t) =>
    match loaders.lookup name with
    | some put => put s t
    | none => .ok s where
  known s p value := by cases p <;> rfl
  unknown s name value hname := by
    have hnone : loaders.lookup name = none := parts.lookup_eq_none_of_ne rfl hname
    simp only [hnone]

/-! ### Files -/

namespace Settings

/-- A plain name leads to what stands under it in the working folder. -/
theorem place_name (folder : Folder String) {name : String}
    (hzero : name.contains '\x00' = false) (hsize : name.utf8ByteSize ≤ Folder.maxPart)
    (hsteps : Folder.steps name = [name])
    (hname : name ≠ "" ∧ name.toList.head? ≠ some '/' ∧ name ≠ "." ∧ name ≠ "..") :
    folder.place name =
      if folder.isFolder [name] then .folder
      else
        match folder.content? [name] with
        | some content => .file [name] content
        | none => .vacant [name] := by
  have hpath : ¬Folder.maxPath < name.utf8ByteSize :=
    Nat.not_lt.mpr (Nat.le_trans hsize (by decide))
  rw [Folder.place, hzero, if_neg Bool.false_ne_true, if_neg hpath, if_neg hname.1,
    if_neg hname.2.1, hsteps, Folder.follow, if_neg hname.2.2.1, if_neg hname.2.2.2,
    if_neg (Nat.not_lt.mpr hsize)]
  simp only [List.nil_append, Folder.follow, if_true]
  cases folder.content? [name] <;> rfl

theorem place_file (content : String) :
    (⟨[(["relay.json"], content)]⟩ : Folder String).place "relay.json" =
      .file ["relay.json"] content := by
  rw [place_name _ (by cbv) (by decide) (by decide +kernel) (by decide)]
  simp [Folder.isFolder, Folder.content?]

/-- A file with the text of an object has the members of the object as its entries. -/
theorem fileEntries_render {members : List (String × Json)}
    (hfits : (Json.obj members).Fits Json.maxDepth) (vars : List (String × String)) :
    fileEntries ConfigLibrary.workplace ⟨[(["relay.json"], (Json.obj members).render)]⟩ vars
        (some "relay.json") =
      .ok (Tree.ofJsonMembers (.file "relay.json") (Json.arrangedMembers [] members)) := by
  have hparts : Folder.join (Folder.parts "relay.json") = "relay.json" := by decide +kernel
  have hslash : Folder.endsInSlash "relay.json" = false := by decide +kernel
  have hformat : fileExtension "relay.json" = "json" := by decide +kernel
  have hmark : Text.dropMark (Json.obj members).render.toList = (Json.obj members).render.toList := by
    change Text.dropMark (Json.obj members).chars = (Json.obj members).chars
    rw [Json.chars_obj]
    rfl
  have hexists : Folder.exists? ⟨[(["relay.json"], (Json.obj members).render)]⟩ "relay.json" = true := by
    simp only [Folder.exists?, place_file, hslash]
    rfl
  refine (if_pos hexists).trans ?_
  change readPath _ "relay.json" = _
  simp only [readPath, place_file, hparts, readFile, hformat, hmark, String.ofList_toList,
    Json.parse?_render hfits]
  rfl

end Settings

/-! ### The library -/

namespace ConfigLibrary

/-- Sources are laid over each other one by one. -/
theorem workplace_build_concat (folder : Folder String) (vars : List (String × String))
    (sources : List Source) (source : Source) :
    workplace.build folder vars (sources ++ [source]) =
      workplace.build folder vars sources >>= fun t =>
        workplace.collect folder vars source >>= fun entries => pure (workplace.layer t entries) := by
  change List.foldlM _ _ (sources ++ [source]) = _
  rw [List.foldlM_append]
  refine bind_congr fun t => ?_
  rw [List.foldlM_cons]
  change ((fun entries => workplace.layer t entries) <$> workplace.collect folder vars source) >>=
    pure = _
  rw [bind_pure]
  cases workplace.collect folder vars source <;> rfl

theorem workplace_lawful : workplace.Lawful where
  build_nil _ _ := rfl
  build_concat := workplace_build_concat
  collect_environment _ vars := by
    refine ⟨_, rfl, Environment.nodup_foldl_put List.nodup_nil, fun entry hentry => ?_,
      fun var hvar key hkey => Environment.mem_keys_foldl_put (Or.inl ⟨var, hvar, hkey⟩)⟩
    exact (Environment.mem_foldl_put hentry).resolve_right List.not_mem_nil
  path_names := Tree.path_names
  path_first := Tree.path_first
  at?_set t hpath hkeyed hpart := by
    rw [show workplace.set = Tree.set from rfl, Tree.at?_set hpath]
    exact Tree.at?_overlay hkeyed hpart _
  at?_set_of_missing {key name value names} t entries origin hpath hvalue hkeyed hnone := by
    subst hvalue
    have hnodup : (entries.map Prod.fst).Nodup := hkeyed.nodup
    rw [show workplace.set = Tree.set from rfl, Tree.at?_set hpath, Tree.at?_singleton,
      Tree.get?_overlay_of_missing hnodup hnone, Tree.at?_append, ← Tree.at?_singleton,
      Tree.at?_getD_absent]
  at?_set_of_diverge t value hdiverge := Tree.at?_update_of_diverge hdiverge _ t
  at?_set_on_way t value hpath := Tree.at?_set_on_way hpath t value
  keyed_set _ ht hvalue := ht.update fun _ hpart => hpart.overlay _
  exists_set_eq := Tree.exists_set_eq
  readUInt64_table _ _ _ _ h := by cases h
  readText_table _ _ _ _ h := by cases h
  readOptText_table _ _ _ _ h := by cases h
  readLogging_table _ := LogSettings.reads_loaders.derives {}
  readSettings_table _ := Settings.reads_loaders.derives {}

end ConfigLibrary

end Renumber
