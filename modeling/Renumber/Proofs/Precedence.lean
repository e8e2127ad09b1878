import Renumber.Proofs.ConfigWorkplace

/-! Precedence of the sources of settings. Every single setting is what the variable that names it
says, or else what the file says, or else its default. -/
namespace Renumber.Settings

variable {lib : ConfigLibrary} {files : lib.Files} {path : Option String}
  {vars : List (String × String)} {file : List (String × Tree)}

/-! ### Tables of plain names -/

/-- Entries whose names are no paths into settings: each is the name of a setting, or leads away from
all of them. -/
def Plain (lib : ConfigLibrary) (file : List (String × Tree)) : Prop :=
  ∀ key ∈ file.map Prod.fst, key ∈ topNames ∨
    ∃ name steps, lib.path key = .key name :: steps ∧ name ∉ topNames

theorem path_of_mem_topNames (h : lib.Lawful) {top : String} (htop : top ∈ topNames) :
    lib.path top = [top].map .key := by
  have hplain : ∀ top ∈ topNames, IsPlainName top := by decide
  have hpath := h.path_names (List.cons_ne_nil top [])
    (List.forall_mem_singleton.mpr (hplain top htop))
  rwa [String.intercalate_singleton] at hpath

/-- All names of a plain table lead away from a setting, but for the one that it stands under. -/
theorem Plain.diverge (hplain : Plain lib file) (h : lib.Lawful) {top : String}
    (htop : top ∈ topNames) (below : List String) {entry : String × Tree} (hentry : entry ∈ file)
    (hne : entry.1 ≠ top) : Tree.Diverge (lib.path entry.1) (top :: below) := by
  rcases hplain entry.1 (List.mem_map_of_mem hentry) with hname | ⟨name, steps, hpath, hname⟩
  · rw [path_of_mem_topNames h hname]
    exact .here (Ne.symm hne) _ _
  · rw [hpath]
    refine .here ?_ _ _
    rintro rfl
    exact hname htop

/-- In the tree of a plain table there is nothing under a name that the table does not have. -/
theorem Plain.at?_fileTree_of_none (hplain : Plain lib file) (h : lib.Lawful) {top : String}
    (htop : top ∈ topNames) (hnone : file.lookup top = none) (below : List String) :
    (fileTree lib file).at? (top :: below) = none := by
  refine (h.at?_layer_of_diverge (fun entry hentry => ?_) _).trans rfl
  refine hplain.diverge h htop below hentry ?_
  rintro rfl
  exact (bne_iff_ne.mp (List.lookup_eq_none_iff.mp hnone entry hentry)) rfl

/-- What a plain table has under a name is set in nothing. -/
theorem Plain.exists_at?_fileTree_eq (hplain : Plain lib file) (h : lib.Lawful)
    (hkeyed : (Tree.table file none).Keyed) {top : String} (htop : top ∈ topNames) {value : Tree}
    (hvalue : file.lookup top = some value) (below : List String) :
    ∃ t : Tree, t.at? (top :: below) = none ∧
      (fileTree lib file).at? (top :: below) = (lib.set t top value).at? (top :: below) := by
  have hentry := (Entries.lookup_eq_some_iff_mem hkeyed.nodup).mp hvalue
  have hothers : ∀ entry ∈ file, entry.1 ≠ top → Tree.Diverge (lib.path entry.1) (top :: below) :=
    fun entry hmem hne => hplain.diverge h htop below hmem hne
  obtain ⟨t, ht, heq⟩ := h.exists_at?_layer_eq hkeyed.nodup hentry hothers (.table [] none)
  exact ⟨t, ht.trans rfl, heq⟩

theorem Plain.alike_fileTree (hplain : Plain lib file) (h : lib.Lawful)
    (hkeyed : (Tree.table file none).Keyed) {top : String} (htop : top ∈ topNames) {value : Tree}
    (hvalue : file.lookup top = some value) {below : List String} {part : Tree}
    (hpart : value.at? below = some part) :
    Tree.Alike ((fileTree lib file).at? (top :: below)) part := by
  obtain ⟨t, -, heq⟩ := hplain.exists_at?_fileTree_eq h hkeyed htop hvalue below
  rw [heq]
  exact @ConfigLibrary.Lawful.at?_set _ h top value part [top] below t
    (path_of_mem_topNames h htop) (hkeyed.get? hvalue) hpart

/-- In the tree of a plain table, each setting is what the table itself has for it. -/
theorem Plain.result_fileTree (hplain : Plain lib file) (h : lib.Lawful)
    (hkeyed : (Tree.table file none).Keyed) (hgroup : (Tree.table file none).HasTable "logging")
    (leaf : Leaf) (x : leaf.Value) :
    leaf.result lib ((fileTree lib file).at? leaf.path) = .ok x ↔
      leaf.result lib ((Tree.table file none).at? leaf.path) = .ok x := by
  obtain ⟨top, below, hpath, htop⟩ := leaf.exists_path_eq
  have hat : (Tree.table file none).at? (top :: below) =
      (file.lookup top).bind (·.at? below) := rfl
  rw [hpath, hat]
  cases hvalue : file.lookup top with
  | none =>
    rw [hplain.at?_fileTree_of_none h htop hvalue]
    rfl
  | some value =>
    rw [Option.bind_some]
    cases hpart : value.at? below with
    | some part =>
      exact leaf.result_eq_ok_iff_of_alike h (hplain.alike_fileTree h hkeyed htop hvalue hpart) x
    | none =>
      cases leaf with
      | sequenceHistory | maxStreams =>
        obtain ⟨rfl, rfl⟩ := List.cons.inj hpath
        cases hpart
      | logging part =>
        obtain ⟨rfl, rfl⟩ := List.cons.inj hpath
        obtain ⟨entries, origin, rfl⟩ := hgroup value hvalue
        obtain ⟨t, ht, heq⟩ := hplain.exists_at?_fileTree_eq h hkeyed htop hvalue
          [LogSettings.parts.name part]
        rw [Tree.at?_singleton] at hpart
        have hmissing := h.at?_set_of_missing t (path_of_mem_topNames h htop) rfl
          (hkeyed.get? hvalue) hpart
        rw [heq, show ["logging", LogSettings.parts.name part] =
          ["logging"] ++ [LogSettings.parts.name part] from rfl, hmissing]
        exact iff_of_eq (congrArg (fun found => Leaf.result lib _ found = .ok x) ht)

theorem Plain.layered_iff (hplain : Plain lib file) (h : lib.Lawful)
    (hkeyed : (Tree.table file none).Keyed) (hgroup : (Tree.table file none).HasTable "logging")
    (vars : List (String × String)) (s : Settings) :
    Layered lib vars (fileTree lib file) s ↔ Layered lib vars (.table file none) s := by
  refine forall_congr' fun leaf => ?_
  cases leaf.fromVariables lib vars with
  | some value => exact Iff.rfl
  | none => exact hplain.result_fileTree h hkeyed hgroup leaf _

theorem Plain.hasTable_fileTree (hplain : Plain lib file) (h : lib.Lawful)
    (hkeyed : (Tree.table file none).Keyed) (hgroup : (Tree.table file none).HasTable "logging") :
    (fileTree lib file).HasTable "logging" := by
  intro part hpart
  rw [← Tree.at?_singleton] at hpart
  cases hvalue : file.lookup "logging" with
  | none =>
    rw [hplain.at?_fileTree_of_none h (by decide) hvalue] at hpart
    cases hpart
  | some value =>
    obtain ⟨entries, origin, rfl⟩ := hgroup value hvalue
    have halike := hplain.alike_fileTree h hkeyed (by decide) hvalue
      (rfl : (Tree.table entries origin).at? [] = some (.table entries origin))
    obtain ⟨entries', origin', htable⟩ := halike.exists_table
    exact ⟨entries', origin', Option.some.inj (hpart.symm.trans htable)⟩

/-! ### Loading -/

/-- A file with plain names gives the settings of its own table. -/
theorem Plain.load_eq_ok_iff (hplain : Plain lib file) (h : lib.Lawful)
    (hfile : fileEntries lib files vars path = .ok file) (hkeyed : (Tree.table file none).Keyed)
    (hvars : Addressed vars) (hgroup : (Tree.table file none).HasTable "logging") (s : Settings) :
    load lib files path vars = .ok s ↔ Layered lib vars (.table file none) s :=
  (load_eq_ok_iff_of_hasTable h hfile hvars hkeyed.parts (hplain.hasTable_fileTree h hkeyed hgroup)
    s).trans (hplain.layered_iff h hkeyed hgroup vars s)

/-- What each setting comes to is of a kind that the setting can have. -/
def RightKinds (lib : ConfigLibrary) (vars : List (String × String)) (t : Tree) : Prop :=
  ∀ leaf : Leaf, ∃ x, leaf.result lib ((leaf.fromVariables lib vars).or (t.at? leaf.path)) = .ok x

theorem exists_layered_iff (vars : List (String × String)) (t : Tree) :
    (∃ s, Layered lib vars t s) ↔ RightKinds lib vars t := by
  constructor
  · rintro ⟨s, hs⟩ leaf
    exact ⟨_, hs leaf⟩
  · intro h
    obtain ⟨history, hhistory⟩ := h .sequenceHistory
    obtain ⟨streams, hstreams⟩ := h .maxStreams
    obtain ⟨level, hlevel⟩ := h (.logging .level)
    obtain ⟨format, hformat⟩ := h (.logging .format)
    obtain ⟨filePath, hpath⟩ := h (.logging .filePath)
    refine ⟨⟨history, streams, level, format, filePath⟩, fun leaf => ?_⟩
    cases leaf with
    | sequenceHistory => exact hhistory
    | maxStreams => exact hstreams
    | logging part =>
      cases part with
      | level => exact hlevel
      | format => exact hformat
      | filePath => exact hpath

/-- The environment has precedence over the file, and the file over the defaults, for each setting on
its own. Loading gives each setting the value of the variable that names it, or else what the tree of
the file has for it, or else its default, and succeeds if these are of the right kinds. Nothing else
in the environment or the file matters. The tree of a file with plain names has the settings of the
file's own table. A path that leads nowhere counts as none. -/
theorem load_eq_ok_iff_layered (h : lib.Lawful)
    (hfile : fileEntries lib files vars path = .ok file) (hkeyed : (Tree.table file none).Keyed)
    (hvars : Addressed vars) :
    (Plain lib file → (Tree.table file none).HasTable "logging" →
      (∀ s, load lib files path vars = .ok s ↔ Layered lib vars (.table file none) s) ∧
      (RightKinds lib vars (.table file none) → ∃ s, load lib files path vars = .ok s)) ∧
    ((fileTree lib file).HasTable "logging" →
      (∀ s, load lib files path vars = .ok s ↔ Layered lib vars (fileTree lib file) s) ∧
      (RightKinds lib vars (fileTree lib file) → ∃ s, load lib files path vars = .ok s)) ∧
    ∀ nowhere, lib.exists? files nowhere = false →
      load lib files (some nowhere) vars = load lib files none vars := by
  refine ⟨fun hplain hgroup => ?_, fun hgroup => ?_, fun nowhere hnowhere => ?_⟩
  · have hload := hplain.load_eq_ok_iff h hfile hkeyed hvars hgroup
    refine ⟨hload, fun hkinds => ?_⟩
    obtain ⟨s, hs⟩ := (exists_layered_iff vars _).mpr hkinds
    exact ⟨s, (hload s).mpr hs⟩
  · have hload := load_eq_ok_iff_of_hasTable h hfile hvars hkeyed.parts hgroup
    refine ⟨hload, fun hkinds => ?_⟩
    obtain ⟨s, hs⟩ := (exists_layered_iff vars _).mpr hkinds
    exact ⟨s, (hload s).mpr hs⟩
  · rw [load, load, sources, sources, if_neg (Bool.not_eq_true _ ▸ hnowhere)]

/-- One of the settings of logging, another setting and an unknown name. -/
private def sparse : List (String × Json) :=
  [("logging", .obj [("level", .str "warn")]), ("max_streams", .int 5), ("colour", .str "red")]

/-- Another one of the settings of logging, a setting that the file has, too, an unknown path, and a
variable of others. -/
private def sparseVars : List (String × String) :=
  [("RELAY_LOGGING__FORMAT", "json"), ("Relay_Max_Streams", "TRUE"), ("RELAY_COLOUR__SHADE", "7"),
    ("HOME", "/root")]

private def sparseEntries : List (String × Tree) :=
  Tree.ofJsonMembers (.file "relay.json") (Json.arrangedMembers [] sparse)

private def sparseFolder : Folder String := ⟨[(["relay.json"], (Json.obj sparse).render)]⟩

private theorem fileEntries_sparse :
    fileEntries .workplace sparseFolder sparseVars (some "relay.json") = .ok sparseEntries := by
  have hfits : (Json.obj sparse).Fits Json.maxDepth :=
    ⟨by decide, by decide, ⟨by decide, by decide, trivial, trivial⟩, ⟨by decide, by decide⟩, trivial,
      trivial⟩
  exact fileEntries_render hfits sparseVars

private theorem keyed_sparse : (Tree.table sparseEntries none).Keyed := by
  refine .table (by decide) (fun entry hentry => ?_) none
  change entry ∈ [("colour", _), ("logging", _), ("max_streams", _)] at hentry
  simp only [List.mem_cons, List.not_mem_nil, or_false] at hentry
  rcases hentry with rfl | rfl | rfl
  · exact .leaf _ _
  · refine @Tree.Keyed.table [_] (List.nodup_singleton _) (fun inner hinner => ?_) _
    rw [List.mem_singleton.mp hinner]
    exact .leaf _ _
  · exact .leaf _ _

private theorem plain_sparse : Plain .workplace sparseEntries := by
  intro key hkey
  change key ∈ ["colour", "logging", "max_streams"] at hkey
  simp only [List.mem_cons, List.not_mem_nil, or_false] at hkey
  rcases hkey with rfl | rfl | rfl
  · exact Or.inr ⟨"colour", [], by decide, by decide⟩
  · exact Or.inl (by decide)
  · exact Or.inl (by decide)

private theorem addressed_sparseVars : Addressed sparseVars := by
  refine ⟨by decide +kernel, by decide +kernel, fun var hvar segments hsegments => ?_⟩
  simp only [sparseVars, List.mem_cons, List.not_mem_nil, or_false] at hvar
  rcases hvar with rfl | rfl | rfl | rfl
  · obtain rfl := Option.some.inj (hsegments.symm.trans
      (by decide +kernel : _ = some ["logging", "format"]))
    exact Or.inl ⟨.logging .format, rfl⟩
  · obtain rfl := Option.some.inj (hsegments.symm.trans
      (by decide +kernel : _ = some ["max_streams"]))
    exact Or.inl ⟨.maxStreams, rfl⟩
  · obtain rfl := Option.some.inj (hsegments.symm.trans
      (by decide +kernel : _ = some ["colour", "shade"]))
    exact Or.inr (by decide)
  · have hnone : Environment.segments? "HOME" = none := by decide +kernel
    exact absurd (hnone.symm.trans hsegments) (Option.some_ne_none _).symm

private theorem layered_sparse :
    Layered .workplace sparseVars (.table sparseEntries none) ⟨100, 1, "warn", "json", none⟩ := by
  intro leaf
  cases leaf with
  | sequenceHistory => rfl
  | maxStreams => rfl
  | logging part => cases part <;> rfl

/-- The file, a variable and the defaults each give one of the settings of logging, and a variable
gives what the file has, too. -/
theorem load_eq_ok_iff_layered_mixed :
    ConfigLibrary.workplace.Lawful ∧
      fileEntries .workplace sparseFolder sparseVars (some "relay.json") = .ok sparseEntries ∧
      (Tree.table sparseEntries none).Keyed ∧ Addressed sparseVars ∧ Plain .workplace sparseEntries ∧
      (Tree.table sparseEntries none).HasTable "logging" ∧
      (fileTree .workplace sparseEntries).HasTable "logging" ∧
      RightKinds .workplace sparseVars (.table sparseEntries none) ∧
      load .workplace sparseFolder (some "relay.json") sparseVars =
        .ok ⟨100, 1, "warn", "json", none⟩ ∧
      Folder.exists? sparseFolder "relay.toml" = false ∧
      load .workplace sparseFolder (some "relay.toml") sparseVars =
        load .workplace sparseFolder none sparseVars := by
  have h := ConfigLibrary.workplace_lawful
  have hgroup : (Tree.table sparseEntries none).HasTable "logging" :=
    fun part hpart => ⟨_, _, (Option.some.inj hpart).symm⟩
  have hnowhere : Folder.exists? sparseFolder "relay.toml" = false := by
    rw [Folder.exists?, place_name _ (by cbv) (by decide) (by decide +kernel) (by decide)]
    simp [sparseFolder, Folder.isFolder, Folder.content?, List.lookup_cons]
  obtain ⟨hload, -, hnone⟩ :=
    load_eq_ok_iff_layered h fileEntries_sparse keyed_sparse addressed_sparseVars
  exact ⟨h, fileEntries_sparse, keyed_sparse, addressed_sparseVars, plain_sparse, hgroup,
    plain_sparse.hasTable_fileTree h keyed_sparse hgroup,
    (exists_layered_iff _ _).mp ⟨_, layered_sparse⟩,
    ((hload plain_sparse hgroup).1 _).mpr layered_sparse, hnowhere, hnone _ hnowhere⟩

/-- A name with a point leads into the settings of logging, although the file has nothing under
`logging`. -/
theorem not_layered_of_pointed_name :
    let members : List (String × Json) := [("logging.level", .str "debug")]
    let folder : Folder String := ⟨[(["relay.json"], (Json.obj members).render)]⟩
    ConfigLibrary.workplace.Lawful ∧ Addressed [] ∧
      ∃ file s, fileEntries .workplace folder [] (some "relay.json") = .ok file ∧
        (Tree.table file none).Keyed ∧ file.lookup "logging" = none ∧
        load .workplace folder (some "relay.json") [] = .ok s ∧ s.logging.level = "debug" ∧
        ¬Layered .workplace [] (.table file none) s := by
  intro members folder
  have h := ConfigLibrary.workplace_lawful
  have hfits : (Json.obj members).Fits Json.maxDepth := ⟨by decide, by decide, trivial, trivial⟩
  have hfile := fileEntries_render hfits []
  have hkeyed : (Tree.table (Tree.ofJsonMembers (.file "relay.json")
      (Json.arrangedMembers [] members)) none).Keyed := by
    refine @Tree.Keyed.table [_] (List.nodup_singleton _) (fun entry hentry => ?_) none
    rw [List.mem_singleton.mp hentry]
    exact .leaf _ _
  have hpath : Tree.path "logging.level" = [.key "logging", .key "level"] := by decide
  have htree : fileTree .workplace (Tree.ofJsonMembers (.file "relay.json")
      (Json.arrangedMembers [] members)) = .table [("logging", .table [("level",
        .leaf (.text "debug") (some (.file "relay.json")))] none)] none := by
    change Tree.set _ "logging.level" _ = _
    rw [Tree.set, hpath]
    rfl
  refine ⟨h, .nil, _, { logging := { level := "debug" } }, hfile, hkeyed, by decide, ?_, rfl,
    fun hlayered => ?_⟩
  · refine (load_eq_ok_iff_of_hasTable h hfile .nil hkeyed.parts ?_ _).mpr ?_
    · rw [htree]
      exact fun part hpart => ⟨_, _, (Option.some.inj hpart).symm⟩
    · rw [htree]
      intro leaf
      cases leaf with
      | sequenceHistory => rfl
      | maxStreams => rfl
      | logging part => cases part <;> rfl
  · have hlevel : ({} : LogSettings).level = "debug" := Except.ok.inj (hlayered (.logging .level))
    exact absurd hlevel (by decide)

end Renumber.Settings
