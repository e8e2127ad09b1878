import Renumber.Proofs.LibraryLaws
import Renumber.Proofs.Variables

/-! The single settings. Each is read from its own place in the tree and from nowhere else, and a
variable sets the one that its name leads to. -/
namespace Renumber

namespace ConfigLibrary.Lawful

variable {lib : ConfigLibrary}

/-- The path of segments begins with the first one, or with a name that has a point. -/
theorem exists_path_intercalate_eq (h : lib.Lawful) {first : String} {rest : List String}
    (hbracket : ∀ segment ∈ first :: rest, '[' ∉ segment.toList) (hpoint : '.' ∉ first.toList) :
    ∃ name steps, lib.path (".".intercalate (first :: rest)) = .key name :: steps ∧
      (name = first ∨ '.' ∈ name.toList) := by
  have hkey : '[' ∉ (".".intercalate (first :: rest)).toList := by
    intro hmem
    rw [String.toList_intercalate] at hmem
    rcases Environment.mem_or_mem_of_mem_intercalate hmem with hmem | ⟨part, hpart, hmem⟩
    · exact absurd hmem (by decide)
    · obtain ⟨segment, hsegment, rfl⟩ := List.mem_map.mp hpart
      exact hbracket segment hsegment hmem
  obtain ⟨name, steps, hpath, hname⟩ := h.path_first hkey
  have htake : ∀ tail, (first.toList ++ tail).takeWhile (· ≠ '.') =
      first.toList ++ tail.takeWhile (· ≠ '.') := by
    intro tail
    refine List.takeWhile_append_of_pos fun c hc => decide_eq_true ?_
    rintro rfl
    exact hpoint hc
  refine ⟨name, steps, hpath, ?_⟩
  rcases eq_or_ne rest [] with rfl | hrest
  · have hfirst := htake []
    rw [List.append_nil, List.takeWhile_nil, List.append_nil] at hfirst
    rw [String.intercalate_singleton, hfirst, String.toList_inj, or_self] at hname
    exact Or.inl hname
  · rw [String.intercalate_cons_of_ne_nil hrest] at hname
    rcases hname with rfl | hname
    · exact Or.inr (by simp)
    · have htail : (first ++ "." ++ ".".intercalate rest).toList =
          first.toList ++ '.' :: (".".intercalate rest).toList := by
        simp
      rw [htail, htake, List.takeWhile_cons_of_neg (by decide), List.append_nil,
        String.toList_inj] at hname
      exact Or.inl hname

end ConfigLibrary.Lawful

namespace Settings

/-- A setting without parts. -/
inductive Leaf where
  | sequenceHistory
  | maxStreams
  | logging (part : LogSettings.Part)

namespace Leaf

/-- Where the setting stands in a tree. -/
def path : Leaf → List String
  | .sequenceHistory => ["sequence_history"]
  | .maxStreams => ["max_streams"]
  | .logging part => ["logging", LogSettings.parts.name part]

def Value : Leaf → Type
  | .sequenceHistory | .maxStreams => UInt64
  | .logging part => LogSettings.parts.Value part

def view : (leaf : Leaf) → Settings → leaf.Value
  | .sequenceHistory, s => s.sequenceHistory
  | .maxStreams, s => s.maxStreams
  | .logging part, s => LogSettings.parts.view part s.logging

/-- How the setting is converted from the value in its place. -/
def read (lib : ConfigLibrary) : (leaf : Leaf) → Tree → Except lib.Error leaf.Value
  | .sequenceHistory => lib.readUInt64 "sequence_history"
  | .maxStreams => lib.readUInt64 "max_streams"
  | .logging part => lib.readLogPart part

/-- The setting as a tree gives it, or else its default. -/
def result (lib : ConfigLibrary) (leaf : Leaf) (t : Option Tree) : Except lib.Error leaf.Value :=
  t.elim (.ok (leaf.view {})) (leaf.read lib)

variable {lib : ConfigLibrary}

/-- The key of a setting is read as its path. -/
theorem path_intercalate (h : lib.Lawful) (leaf : Leaf) :
    lib.path (".".intercalate leaf.path) = leaf.path.map .key := by
  refine h.path_names ?_ ?_
  · cases leaf <;> exact List.cons_ne_nil _ _
  · cases leaf with
    | sequenceHistory => decide
    | maxStreams => decide
    | logging part => cases part <;> decide

/-- Different settings stand in different places, none below another. -/
theorem diverge_of_ne {leaf other : Leaf} (h : other ≠ leaf) :
    Tree.Diverge (other.path.map .key) leaf.path := by
  cases leaf with
  | sequenceHistory =>
    cases other with
    | sequenceHistory => exact absurd rfl h
    | maxStreams => exact .here (by decide) _ _
    | logging part => exact .here (by decide) _ _
  | maxStreams =>
    cases other with
    | sequenceHistory => exact .here (by decide) _ _
    | maxStreams => exact absurd rfl h
    | logging part => exact .here (by decide) _ _
  | logging part =>
    cases other with
    | sequenceHistory => exact .here (by decide) _ _
    | maxStreams => exact .here (by decide) _ _
    | logging part' =>
      have hpart : part ≠ part' := fun heq => h (congrArg _ heq.symm)
      exact .after _ (.here (fun heq => hpart (LogSettings.parts.name_injective heq)) _ _)

/-- No setting is read from a table. -/
theorem read_table (h : lib.Lawful) (leaf : Leaf) (entries : List (String × Tree))
    (origin : Option Origin) (x : leaf.Value) : leaf.read lib (.table entries origin) ≠ .ok x := by
  cases leaf with
  | sequenceHistory => exact h.readUInt64_table _ entries origin x
  | maxStreams => exact h.readUInt64_table _ entries origin x
  | logging part =>
    cases part with
    | level => exact h.readText_table _ entries origin x
    | format => exact h.readText_table _ entries origin x
    | filePath => exact h.readOptText_table _ entries origin x

/-- For a setting, one table is as good as another. -/
theorem result_eq_ok_iff_of_alike (h : lib.Lawful) (leaf : Leaf) {found : Option Tree}
    {part : Tree} (halike : Tree.Alike found part) (x : leaf.Value) :
    leaf.result lib found = .ok x ↔ leaf.result lib (some part) = .ok x := by
  rcases halike with rfl | ⟨entries, origin, entries', origin', rfl, rfl⟩
  · exact Iff.rfl
  · exact iff_of_false (leaf.read_table h entries' origin' x) (leaf.read_table h entries origin x)

theorem exists_path_eq (leaf : Leaf) :
    ∃ top below, leaf.path = top :: below ∧ top ∈ topNames := by
  cases leaf with
  | sequenceHistory => exact ⟨_, _, rfl, by decide⟩
  | maxStreams => exact ⟨_, _, rfl, by decide⟩
  | logging part => exact ⟨_, _, rfl, by decide⟩

end Leaf

variable {lib : ConfigLibrary} {t : Tree} {s : Settings}

/-- Settings of logging are read leaf by leaf. -/
theorem result_logging_eq_ok_iff (h : lib.Lawful) (hkeyed : t.Keyed)
    (hgroup : t.HasTable "logging") :
    parts.result lib.readPart {} t.entries .logging = .ok s.logging ↔
      ∀ part, (Leaf.logging part).result lib (t.at? (Leaf.logging part).path) =
        .ok ((Leaf.logging part).view s) := by
  change (t.get? "logging").elim (.ok {}) lib.readLogging = _ ↔ _
  cases hlogging : t.get? "logging" with
  | none =>
    have hat : ∀ part, t.at? (Leaf.logging part).path = none := fun part => by
      rw [Leaf.path, Tree.at?, hlogging]
      rfl
    simp only [hat]
    constructor
    · intro heq part
      exact congrArg (Except.ok ∘ LogSettings.parts.view part) (Except.ok.inj heq)
    · intro hviews
      exact congrArg Except.ok (LogSettings.parts.ext fun part => Except.ok.inj (hviews part))
  | some group =>
    obtain ⟨entries, origin, rfl⟩ := hgroup group hlogging
    have hat : ∀ part, t.at? (Leaf.logging part).path =
        entries.lookup (LogSettings.parts.name part) := fun part => by
      rw [Leaf.path, Tree.at?, hlogging]
      exact Tree.at?_singleton _ _
    simp only [hat]
    exact (h.readLogging_table origin).eq_ok_iff (hkeyed.get? hlogging).nodup s.logging

/-- The settings in a tree are read leaf by leaf. -/
theorem readSettings_eq_ok_iff (h : lib.Lawful) {entries : List (String × Tree)}
    {origin : Option Origin} (ht : t = .table entries origin) (hkeyed : t.Keyed)
    (hgroup : t.HasTable "logging") : lib.readSettings t = .ok s ↔
      ∀ leaf : Leaf, leaf.result lib (t.at? leaf.path) = .ok (leaf.view s) := by
  have hlogging := result_logging_eq_ok_iff (s := s) h hkeyed hgroup
  have hhistory : Leaf.sequenceHistory.result lib (t.at? Leaf.sequenceHistory.path) =
      parts.result lib.readPart {} t.entries .sequenceHistory :=
    congrArg (Leaf.sequenceHistory.result lib) (t.at?_singleton _)
  have hstreams : Leaf.maxStreams.result lib (t.at? Leaf.maxStreams.path) =
      parts.result lib.readPart {} t.entries .maxStreams :=
    congrArg (Leaf.maxStreams.result lib) (t.at?_singleton _)
  have hread : lib.readSettings t = .ok s ↔ parts.Gives lib.readPart {} t.entries s := by
    subst ht
    exact (h.readSettings_table origin).eq_ok_iff hkeyed.nodup s
  rw [hread]
  constructor
  · intro hparts leaf
    cases leaf with
    | sequenceHistory => exact hhistory.trans (hparts .sequenceHistory)
    | maxStreams => exact hstreams.trans (hparts .maxStreams)
    | logging part => exact hlogging.mp (hparts .logging) part
  · intro hleaves p
    cases p with
    | sequenceHistory => exact hhistory.symm.trans (hleaves .sequenceHistory)
    | maxStreams => exact hstreams.symm.trans (hleaves .maxStreams)
    | logging => exact hlogging.mpr fun part => hleaves (.logging part)

/-! ### Variables -/

/-- Variables that each name a setting, or a path that no setting is on. -/
structure Addressed (vars : List (String × String)) : Prop where
  /-- Names of the program's variables differ by more than letter case. -/
  distinct : ∀ var ∈ vars, ∀ other ∈ vars, Environment.segments? var.1 ≠ none →
    Text.lower var.1 = Text.lower other.1 → var = other
  /-- Names have none of the marks that only paths have, such as those of letters, digits and
  underscores. -/
  unmarked : ∀ var ∈ vars, Environment.segments? var.1 ≠ none →
    '.' ∉ var.1.toList ∧ '[' ∉ var.1.toList
  known : ∀ var ∈ vars, ∀ segments, Environment.segments? var.1 = some segments →
    (∃ leaf : Leaf, segments = leaf.path) ∨ ∀ first ∈ segments.head?, first ∉ topNames

theorem Addressed.nil : Addressed [] where
  distinct := fun _ hvar => absurd hvar List.not_mem_nil
  unmarked := fun _ hvar => absurd hvar List.not_mem_nil
  known := fun _ hvar => absurd hvar List.not_mem_nil

/-- What a variable with the text puts into the tree. -/
def variableTree (lib : ConfigLibrary) (text : String) : Tree :=
  .leaf (lib.value text) (some .environment)

/-- The value of the variable that names a setting. -/
def Leaf.fromVariables (lib : ConfigLibrary) (leaf : Leaf) (vars : List (String × String)) :
    Option Tree :=
  vars.findSome? fun var =>
    if Environment.segments? var.1 = some leaf.path then some (variableTree lib var.2) else none

variable {vars : List (String × String)} {var : String × String} {segments : List String}

/-- The path of a variable that names no setting leads away from all of them. -/
theorem Addressed.diverge_of_foreign (hvars : Addressed vars) (h : lib.Lawful) (hvar : var ∈ vars)
    (hsegments : Environment.segments? var.1 = some segments)
    (hforeign : ∀ first ∈ segments.head?, first ∉ topNames) {top : String} (htop : top ∈ topNames)
    (below : List String) :
    Tree.Diverge (lib.path (".".intercalate segments)) (top :: below) := by
  obtain ⟨hpoint, hbracket⟩ :=
    hvars.unmarked var hvar (by rw [hsegments]; exact Option.some_ne_none _)
  have hfree : ∀ segment ∈ segments, '[' ∉ segment.toList ∧ '.' ∉ segment.toList := by
    intro segment hsegment
    exact ⟨fun hmem => hbracket (Environment.mem_of_mem_segment (by decide) hsegments hsegment hmem),
      fun hmem => hpoint (Environment.mem_of_mem_segment (by decide) hsegments hsegment hmem)⟩
  obtain ⟨first, rest, rfl⟩ :=
    List.exists_cons_of_ne_nil (Environment.ne_nil_of_segments? hsegments)
  obtain ⟨name, steps, hpath, hname⟩ := h.exists_path_intercalate_eq
    (fun segment hsegment => (hfree segment hsegment).1) (hfree first List.mem_cons_self).2
  rw [hpath]
  refine .here ?_ steps below
  rintro rfl
  rcases hname with rfl | hmem
  · exact hforeign top rfl htop
  · have htops : ∀ top ∈ topNames, '.' ∉ top.toList := by decide
    exact htops top htop hmem

/-- The key of a variable leads to the setting that it names, and away from all others. -/
theorem Addressed.aim (hvars : Addressed vars) (h : lib.Lawful) (hvar : var ∈ vars) {key : String}
    (hkey : Environment.key? var.1 = some key) (leaf : Leaf) :
    Environment.segments? var.1 = some leaf.path ∧ key = ".".intercalate leaf.path ∨
      Tree.Diverge (lib.path key) leaf.path := by
  rw [Environment.key?_eq, Option.map_eq_some_iff] at hkey
  obtain ⟨segments, hsegments, rfl⟩ := hkey
  rcases hvars.known var hvar segments hsegments with ⟨other, rfl⟩ | hforeign
  · by_cases heq : other = leaf
    · subst heq
      exact Or.inl ⟨hsegments, rfl⟩
    · rw [other.path_intercalate h]
      exact Or.inr (Leaf.diverge_of_ne heq)
  · obtain ⟨top, below, hpath, htop⟩ := leaf.exists_path_eq
    rw [hpath]
    exact Or.inr (hvars.diverge_of_foreign h hvar hsegments hforeign htop below)

/-- All variables that name one setting are the same. -/
theorem Addressed.fromVariables_eq (hvars : Addressed vars) (hvar : var ∈ vars) {leaf : Leaf}
    (hsegments : Environment.segments? var.1 = some leaf.path) :
    leaf.fromVariables lib vars = some (variableTree lib var.2) := by
  cases hfrom : leaf.fromVariables lib vars with
  | none =>
    rw [Leaf.fromVariables, List.findSome?_eq_none_iff] at hfrom
    have hnone := hfrom var hvar
    rw [if_pos hsegments] at hnone
    cases hnone
  | some value =>
    obtain ⟨other, hother, hvalue⟩ := List.exists_of_findSome?_eq_some hfrom
    rw [Option.ite_none_right_eq_some, Option.some.injEq] at hvalue
    have hsome : Environment.segments? var.1 ≠ none := by
      rw [hsegments]
      exact Option.some_ne_none _
    rw [hvars.distinct var hvar other hother hsome
      (Environment.lower_eq_of_segments? hsegments hvalue.1), hvalue.2]

/-- Over a tree, variables give a setting what the one that names it says, and leave it if none
does. -/
theorem Addressed.at?_layer (hvars : Addressed vars) (h : lib.Lawful) {files : lib.Files}
    {source : List (String × Tree)} (hsource : lib.collect files vars .environment = .ok source)
    (t : Tree) (leaf : Leaf) : (lib.layer t source).at? leaf.path =
      (leaf.fromVariables lib vars).or (t.at? leaf.path) := by
  obtain ⟨entries, hentries, hnodup, hsound, hcomplete⟩ := h.collect_environment files vars
  obtain rfl := Except.ok.inj (hentries.symm.trans hsource)
  by_cases hnamed : ∃ entry ∈ entries, entry.1 = ".".intercalate leaf.path
  · obtain ⟨⟨key, value⟩, hentry, rfl⟩ := hnamed
    have hpath := leaf.path_intercalate h
    obtain ⟨var, hvar, hkey, rfl⟩ := hsound _ hentry
    have hsegments : Environment.segments? var.1 = some leaf.path := by
      rcases hvars.aim h hvar hkey leaf with ⟨hsegments, -⟩ | hdiverge
      · exact hsegments
      · rw [hpath] at hdiverge
        exact absurd hdiverge (Tree.not_diverge_map_key _)
    have hothers : ∀ entry ∈ entries, entry.1 ≠ ".".intercalate leaf.path →
        Tree.Diverge (lib.path entry.1) leaf.path := by
      intro entry hmem hne
      obtain ⟨other, hother, hkey, -⟩ := hsound entry hmem
      exact (hvars.aim h hother hkey leaf).resolve_left fun hleft => hne hleft.2
    obtain ⟨t', -, hlayer⟩ := h.exists_at?_layer_eq hnodup hentry hothers t
    have hvalue : (variableTree lib var.2).at? [] = some (variableTree lib var.2) := rfl
    have hset := h.at?_set t' hpath (.leaf _ _) hvalue
    rw [List.append_nil] at hset
    rw [hvars.fromVariables_eq hvar hsegments]
    exact hlayer.trans hset.eq_of_leaf
  · have hnone : leaf.fromVariables lib vars = none := by
      rw [Leaf.fromVariables, List.findSome?_eq_none_iff]
      intro var hvar
      refine if_neg fun hsegments => hnamed ?_
      have hkey : Environment.key? var.1 = some (".".intercalate leaf.path) := by
        rw [Environment.key?_eq, hsegments]
        rfl
      exact List.mem_map.mp (hcomplete var hvar _ hkey)
    rw [hnone, Option.none_or]
    refine h.at?_layer_of_diverge (fun entry hmem => ?_) t
    obtain ⟨var, hvar, hkey, -⟩ := hsound entry hmem
    exact (hvars.aim h hvar hkey leaf).resolve_left fun hleft => hnamed ⟨entry, hmem, hleft.2⟩

theorem Addressed.hasTable_layer (hvars : Addressed vars) (h : lib.Lawful) {files : lib.Files}
    {source : List (String × Tree)} (hsource : lib.collect files vars .environment = .ok source)
    (hgroup : t.HasTable "logging") : (lib.layer t source).HasTable "logging" := by
  obtain ⟨entries, hentries, -, hsound, -⟩ := h.collect_environment files vars
  obtain rfl := Except.ok.inj (hentries.symm.trans hsource)
  refine h.hasTable_layer hgroup fun entry hmem => ?_
  obtain ⟨var, hvar, hkey, -⟩ := hsound entry hmem
  rw [Environment.key?_eq, Option.map_eq_some_iff] at hkey
  obtain ⟨segments, hsegments, hkey⟩ := hkey
  rw [← hkey]
  rcases hvars.known var hvar segments hsegments with ⟨leaf, rfl⟩ | hforeign
  · rw [leaf.path_intercalate h]
    cases leaf with
    | sequenceHistory => exact Or.inr (.here (by decide) _ _)
    | maxStreams => exact Or.inr (.here (by decide) _ _)
    | logging part => exact Or.inl ⟨_, rfl⟩
  · exact Or.inr (hvars.diverge_of_foreign h hvar hsegments hforeign (by decide) [])

/-! ### Loading -/

/-- The settings are those of variables, and else those of a tree, and else the defaults. -/
def Layered (lib : ConfigLibrary) (vars : List (String × String)) (t : Tree) (s : Settings) : Prop :=
  ∀ leaf : Leaf,
    leaf.result lib ((leaf.fromVariables lib vars).or (t.at? leaf.path)) = .ok (leaf.view s)

/-- The entries of the file that is loaded. -/
def fileEntries (lib : ConfigLibrary) (files : lib.Files) (vars : List (String × String)) :
    Option String → Except lib.Error (List (String × Tree))
  | some path => if lib.exists? files path then lib.collect files vars (.file path) else .ok []
  | none => .ok []

/-- The tree of a file's entries. -/
def fileTree (lib : ConfigLibrary) (file : List (String × Tree)) : Tree :=
  lib.layer (.table [] none) file

variable {files : lib.Files} {path : Option String} {file : List (String × Tree)}

/-- The file is laid over nothing, and the variables over the file. -/
theorem exists_load_eq (h : lib.Lawful) (hfile : fileEntries lib files vars path = .ok file) :
    ∃ source, lib.collect files vars .environment = .ok source ∧
      load lib files path vars = lib.readSettings (lib.layer (fileTree lib file) source) := by
  obtain ⟨source, hsource, -⟩ := h.collect_environment files vars
  have hfirst (s : Source) (entries : List (String × Tree))
      (hs : lib.collect files vars s = .ok entries) :
      lib.build files vars [s] = .ok (fileTree lib entries) := by
    have hconcat := h.build_concat files vars [] s
    rw [h.build_nil, hs] at hconcat
    exact hconcat
  refine ⟨source, hsource, ?_⟩
  have hnone : lib.build files vars [.environment] = .ok (fileTree lib source) :=
    hfirst .environment source hsource
  cases path with
  | none =>
    obtain rfl := Except.ok.inj hfile
    rw [load, sources, hnone]
    rfl
  | some path =>
    rw [fileEntries] at hfile
    rw [load, sources]
    split at hfile
    · next hexists =>
      have hconcat := h.build_concat files vars [.file path] .environment
      rw [hfirst _ _ hfile, hsource] at hconcat
      rw [if_pos hexists, show [Source.file path, .environment] = [.file path] ++ [.environment]
        from rfl, hconcat]
      rfl
    · next hexists =>
      obtain rfl := Except.ok.inj hfile
      rw [if_neg hexists, hnone]
      rfl

theorem load_eq_ok_iff_of_hasTable (h : lib.Lawful)
    (hfile : fileEntries lib files vars path = .ok file) (hvars : Addressed vars)
    (hkeyed : ∀ entry ∈ file, entry.2.Keyed) (hgroup : (fileTree lib file).HasTable "logging")
    (s : Settings) : load lib files path vars = .ok s ↔ Layered lib vars (fileTree lib file) s := by
  obtain ⟨source, hsource, hload⟩ := exists_load_eq h hfile
  obtain ⟨entries, hentries, -, hsound, -⟩ := h.collect_environment files vars
  obtain rfl := Except.ok.inj (hentries.symm.trans hsource)
  have hleaves : ∀ entry ∈ entries, entry.2.Keyed := by
    intro entry hmem
    obtain ⟨var, -, -, hvalue⟩ := hsound entry hmem
    rw [hvalue]
    exact .leaf _ _
  have hfileTable : ∃ root origin, fileTree lib file = .table root origin :=
    h.exists_layer_eq ⟨[], none, rfl⟩
  obtain ⟨root, origin, hroot⟩ : ∃ root origin,
      lib.layer (fileTree lib file) entries = .table root origin := h.exists_layer_eq hfileTable
  have htree : (fileTree lib file).Keyed := h.keyed_layer (.empty none) hkeyed
  rw [hload, readSettings_eq_ok_iff h hroot (h.keyed_layer htree hleaves)
    (hvars.hasTable_layer h hsource hgroup)]
  exact forall_congr' fun leaf => by rw [hvars.at?_layer h hsource]

end Settings

end Renumber
