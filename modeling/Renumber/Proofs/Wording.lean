import Renumber.Proofs.Numerals
import Renumber.Proofs.Precedence

/-! Texts that are given by variables. A text is read as a truth value or a number where it can be,
and written anew from that. It stays as it is if it was written like that before. -/
namespace Renumber

namespace Text

theorem lowerRuns_first : ∀ run ∈ lowerRuns, 58 ≤ run.1 := by
  decide +kernel

theorem lowerChar_of_isDigit {c : Char} (hc : c.isDigit) : lowerChar c = [c] := by
  have hle : c.toNat ≤ 57 := (Char.isDigit_iff_toNat.mp hc).2
  have hdotted : c ≠ '\u0130' := by
    rintro rfl
    exact absurd hc (by decide)
  rw [lowerChar, if_neg hdotted]
  split
  · next first last step distance hfind =>
    have hrun := lowerRuns_first _ (List.mem_of_find?_eq_some hfind)
    have hfound := List.find?_some hfind
    have hfirst : first ≤ c.toNat := (of_decide_eq_true hfound).1
    simp only at hrun
    omega
  · rfl

/-- Digits have no case. -/
theorem mem_lower_of_isDigit {c : Char} (hc : c.isDigit) {s : String} (h : c ∈ s.toList) :
    c ∈ (lower s).toList := by
  have hfrom : ∀ before cs, c ∈ cs → c ∈ lowerFrom before cs := by
    intro before cs
    induction cs generalizing before with
    | nil => exact id
    | cons other cs ih =>
      intro hmem
      rw [lowerFrom, List.mem_append]
      rcases List.mem_cons.mp hmem with rfl | hmem
      · have hsigma : c ≠ 'Σ' := by
          rintro rfl
          exact absurd hc (by decide)
        rw [if_neg hsigma, lowerChar_of_isDigit hc]
        exact Or.inl List.mem_cons_self
      · exact Or.inr (ih _ hmem)
  rw [lower, String.toList_ofList]
  exact hfrom [] s.toList h

end Text

namespace Environment

/-- The text is a truth value, in whatever case. -/
def IsTruth (s : String) : Prop := Text.lower s = "true" ∨ Text.lower s = "false"

instance (s : String) : Decidable (IsTruth s) := inferInstanceAs (Decidable (_ ∨ _))

/-- The integer that a text stands for, if it fits into 64 bits with sign. -/
def integer? (s : String) : Option ℤ := (Digits.int? s.toList).filter Digits.isInt64

variable {floatText : Binary64 → String} {s : String}

/-- A text that is read as a truth value or a number, written anew. -/
def written (floatText : Binary64 → String) (s : String) : String :=
  if IsTruth s then Text.lower s
  else
    match integer? s, Binary64.parse? s with
    | some n, _ => toString n
    | none, some x => floatText x
    | none, none => s

theorem mem_of_mem_sign {c : Char} {cs : List Char} (h : c ∈ (Digits.sign cs).2) : c ∈ cs := by
  unfold Digits.sign at h
  split at h
  · exact List.mem_cons_of_mem _ h
  · exact List.mem_cons_of_mem _ h
  · exact h

/-- An integer has a digit, which no word for a truth value has. -/
theorem not_isTruth_of_integer? {s : String} {n : ℤ} (h : integer? s = some n) : ¬IsTruth s := by
  rw [integer?, Option.filter_eq_some_iff, Digits.int?_eq, Option.map_eq_some_iff] at h
  obtain ⟨⟨m, hm, -⟩, -⟩ := h
  obtain ⟨hne, hdigits, -⟩ := Digits.nat?_eq_some_iff.mp hm
  obtain ⟨c, cs, hcs⟩ := List.exists_cons_of_ne_nil hne
  have hmem : c ∈ (Digits.sign s.toList).2 := hcs ▸ List.mem_cons_self
  have hdigit := hdigits c hmem
  have hlower := Text.mem_lower_of_isDigit hdigit (mem_of_mem_sign hmem)
  rintro (heq | heq)
  · have hword : "true".toList.all (!·.isDigit) := by decide
    simpa [hdigit] using List.all_eq_true.mp hword c (heq ▸ hlower)
  · have hword : "false".toList.all (!·.isDigit) := by decide
    simpa [hdigit] using List.all_eq_true.mp hword c (heq ▸ hlower)

/-! ### Texts that stay as they are -/

theorem written_eq_self_of_isTruth (h : IsTruth s) :
    written floatText s = s ↔ s = "true" ∨ s = "false" := by
  rw [written, if_pos h]
  constructor
  · intro heq
    rwa [IsTruth, heq] at h
  · have htrue : Text.lower "true" = "true" := by decide +kernel
    have hfalse : Text.lower "false" = "false" := by decide +kernel
    rintro (rfl | rfl)
    · exact htrue
    · exact hfalse

theorem written_eq_self_of_integer? {n : ℤ} (h : integer? s = some n) :
    written floatText s = s ↔ s.toList.head? ≠ some '+' ∧
      ¬Digits.HasLeadingZero (Digits.sign s.toList).2 ∧ s ≠ "-0" := by
  have hint : Digits.int? s.toList = some n := (Option.filter_eq_some_iff.mp h).1
  rw [written, if_neg (not_isTruth_of_integer? h), h, ← String.toList_inj,
    Digits.toList_toString_eq_iff hint, ne_eq, ne_eq, ne_eq, ← String.toList_inj]
  rfl

end Environment

namespace LogSettings

/-- The variable that gives a text setting. -/
def Part.variableName : Part → String
  | .level => "RELAY_LOGGING__LEVEL"
  | .format => "RELAY_LOGGING__FORMAT"
  | .filePath => "RELAY_LOGGING__FILE_PATH"

/-- Default settings with one text. -/
def withText (s : String) : Part → LogSettings
  | .level => { level := s }
  | .format => { format := s }
  | .filePath => { filePath := some s }

theorem withText_injective {p : Part} {s s' : String} (h : withText s p = withText s' p) :
    s = s' := by
  cases p with
  | level => exact congrArg level h
  | format => exact congrArg format h
  | filePath => exact Option.some.inj (congrArg filePath h)

/-- The other settings keep their defaults. -/
theorem view_withText_of_ne {p q : Part} (h : p ≠ q) (s : String) :
    parts.view q (withText s p) = parts.view q {} := by
  cases p <;> cases q <;> first | rfl | exact absurd rfl h

theorem Part.unmarked_variableName (p : Part) :
    '.' ∉ p.variableName.toList ∧ '[' ∉ p.variableName.toList := by
  cases p <;> decide

theorem Part.segments?_variableName (p : Part) :
    Environment.segments? p.variableName = some (Settings.Leaf.logging p).path := by
  cases p <;> decide +kernel

end LogSettings

namespace ConfigLibrary

open Environment (IsTruth integer? written)

/-- The library reads the texts of variables as truth values, integers or numbers, where it can, and
writes such values out for a text. Numbers get the given texts. -/
structure Converts (lib : ConfigLibrary) (floatText : Binary64 → String) : Prop where
  value_of_isTruth {s : String} : IsTruth s → lib.value s = .bool (Text.lower s = "true")
  value_of_integer? {s : String} {n : ℤ} : ¬IsTruth s → integer? s = some n → lib.value s = .int n
  value_of_parse? {s : String} {x : Binary64} : ¬IsTruth s → integer? s = none →
    Binary64.parse? s = some x → lib.value s = .float x
  value_of_none {s : String} : ¬IsTruth s → integer? s = none → Binary64.parse? s = none →
    lib.value s = .text s
  readText_bool (key : String) (b : Bool) (origin : Option Origin) :
    lib.readText key (.leaf (.bool b) origin) = .ok (if b then "true" else "false")
  readText_int (key : String) (n : ℤ) (origin : Option Origin) :
    lib.readText key (.leaf (.int n) origin) = .ok (toString n)
  readText_float (key : String) (x : Binary64) (origin : Option Origin) :
    lib.readText key (.leaf (.float x) origin) = .ok (floatText x)
  readText_text (key s : String) (origin : Option Origin) :
    lib.readText key (.leaf (.text s) origin) = .ok s
  /-- Only a missing value is no text. -/
  readOptText_leaf (key : String) {value : Scalar} (origin : Option Origin) : value ≠ .unit →
    lib.readOptText key (.leaf value origin) = some <$> lib.readText key (.leaf value origin)

namespace Converts

variable {lib : ConfigLibrary} {floatText : Binary64 → String} (h : lib.Converts floatText)
include h

/-- A text setting is what its text is read as, written anew. -/
theorem exists_value_eq (s : String) : lib.value s ≠ .unit ∧ ∀ key origin,
    lib.readText key (.leaf (lib.value s) origin) = .ok (written floatText s) := by
  unfold written
  by_cases htruth : IsTruth s
  · rw [h.value_of_isTruth htruth, if_pos htruth]
    refine ⟨Scalar.noConfusion, fun key origin => ?_⟩
    rw [h.readText_bool]
    rcases htruth with heq | heq <;> rw [heq] <;> rfl
  rw [if_neg htruth]
  cases hint : integer? s with
  | some n =>
    rw [h.value_of_integer? htruth hint]
    exact ⟨Scalar.noConfusion, fun key origin => h.readText_int key n origin⟩
  | none =>
    cases hfloat : Binary64.parse? s with
    | some x =>
      rw [h.value_of_parse? htruth hint hfloat]
      exact ⟨Scalar.noConfusion, fun key origin => h.readText_float key x origin⟩
    | none =>
      rw [h.value_of_none htruth hint hfloat]
      exact ⟨Scalar.noConfusion, fun key origin => h.readText_text key s origin⟩

/-- Each text setting is read like that. -/
theorem readLogPart_value (p : LogSettings.Part) (s : String) (origin : Option Origin) :
    lib.readLogPart p (.leaf (lib.value s) origin) =
      .ok (LogSettings.parts.view p (LogSettings.withText (written floatText s) p)) := by
  obtain ⟨hunit, hread⟩ := h.exists_value_eq s
  cases p with
  | level => exact hread _ origin
  | format => exact hread _ origin
  | filePath =>
    refine (h.readOptText_leaf _ origin hunit).trans ?_
    rw [hread]
    rfl

theorem readLogPart_text (p : LogSettings.Part) (s : String) (origin : Option Origin) :
    lib.readLogPart p (.leaf (.text s) origin) =
      .ok (LogSettings.parts.view p (LogSettings.withText s p)) := by
  cases p with
  | level => exact h.readText_text _ s origin
  | format => exact h.readText_text _ s origin
  | filePath =>
    refine (h.readOptText_leaf _ origin Scalar.noConfusion).trans ?_
    rw [h.readText_text]
    rfl

end Converts

theorem workplace_converts : workplace.Converts (Binary64.render .plain) where
  value_of_isTruth {s} htruth := by
    change Environment.value s = _
    unfold Environment.value
    by_cases htrue : Text.lower s = "true"
    · rw [if_pos htrue, decide_eq_true htrue]
    · rw [if_neg htrue, if_pos (htruth.resolve_left htrue), decide_eq_false htrue]
  value_of_integer? {s n} htruth hint := by
    rw [IsTruth, not_or] at htruth
    change Environment.value s = _
    unfold Environment.value
    rw [if_neg htruth.1, if_neg htruth.2, show (Digits.int? s.toList).filter _ = _ from hint]
  value_of_parse? {s x} htruth hint hfloat := by
    rw [IsTruth, not_or] at htruth
    change Environment.value s = _
    unfold Environment.value
    rw [if_neg htruth.1, if_neg htruth.2, show (Digits.int? s.toList).filter _ = _ from hint, hfloat]
  value_of_none {s} htruth hint hfloat := by
    rw [IsTruth, not_or] at htruth
    change Environment.value s = _
    unfold Environment.value
    rw [if_neg htruth.1, if_neg htruth.2, show (Digits.int? s.toList).filter _ = _ from hint, hfloat]
  readText_bool _ _ _ := rfl
  readText_int _ _ _ := rfl
  readText_float _ _ _ := rfl
  readText_text _ _ _ := rfl
  readOptText_leaf _ {value} _ hunit := by
    cases value with
    | unit => exact absurd rfl hunit
    | bool | int | float | text => rfl

end ConfigLibrary

namespace Settings

open Environment (IsTruth integer? written)

variable {lib : ConfigLibrary} {floatText : Binary64 → String} (p : LogSettings.Part) (s : String)

theorem addressed_variableName : Addressed [(p.variableName, s)] where
  distinct := by
    intro var hvar other hother _ _
    rw [List.mem_singleton.mp hvar, List.mem_singleton.mp hother]
  unmarked := by
    intro var hvar _
    rw [List.mem_singleton] at hvar
    subst hvar
    exact p.unmarked_variableName
  known := by
    intro var hvar segments hsegments
    rw [List.mem_singleton] at hvar
    subst hvar
    rw [p.segments?_variableName, Option.some.injEq] at hsegments
    exact Or.inl ⟨_, hsegments.symm⟩

theorem fromVariables_variableName (leaf : Leaf) :
    leaf.fromVariables lib [(p.variableName, s)] =
      if (Leaf.logging p).path = leaf.path then some (variableTree lib s) else none := by
  rw [Leaf.fromVariables, List.findSome?_cons]
  simp only [p.segments?_variableName, Option.some.injEq]
  split <;> simp_all

theorem path_logging_ne {p q : LogSettings.Part} (h : p ≠ q) :
    (Leaf.logging p).path ≠ (Leaf.logging q).path := fun heq =>
  h (LogSettings.parts.name_injective (List.cons.inj (List.cons.inj heq).2).1)

theorem load_variable (h : lib.Lawful) (hconverts : lib.Converts floatText) (files : lib.Files) :
    load lib files none [(p.variableName, s)] =
      .ok { logging := LogSettings.withText (written floatText s) p } := by
  have hgroup : (fileTree lib []).HasTable "logging" := fun part hpart => by cases hpart
  have hnone : ∀ entry ∈ ([] : List (String × Tree)), entry.2.Keyed :=
    fun _ hentry => absurd hentry List.not_mem_nil
  refine (load_eq_ok_iff_of_hasTable h (rfl : fileEntries lib files _ none = .ok [])
    (addressed_variableName p s) hnone hgroup _).mpr fun leaf => ?_
  rw [fromVariables_variableName]
  cases leaf with
  | sequenceHistory => rw [if_neg (by cases p <;> decide)]; rfl
  | maxStreams => rw [if_neg (by cases p <;> decide)]; rfl
  | logging q =>
    by_cases hq : p = q
    · subst hq
      rw [if_pos rfl]
      exact hconverts.readLogPart_value p s _
    · rw [if_neg (path_logging_ne hq)]
      exact congrArg Except.ok (LogSettings.view_withText_of_ne hq _).symm

/-- The entries of a file that gives one text. -/
def textEntries (origin outer : Option Origin) : List (String × Tree) :=
  [("logging", .table [(LogSettings.parts.name p, .leaf (.text s) origin)] outer)]

variable {origin outer : Option Origin} {files : lib.Files} {path : Option String}

theorem keyed_textEntries : (Tree.table (textEntries p s origin outer) none).Keyed := by
  have hgroup : (Tree.table [(LogSettings.parts.name p, .leaf (.text s) origin)] outer).Keyed := by
    refine @Tree.Keyed.table [_] (List.nodup_singleton _) (fun entry hentry => ?_) outer
    rw [List.mem_singleton.mp hentry]
    exact .leaf _ _
  refine @Tree.Keyed.table [_] (List.nodup_singleton _) (fun entry hentry => ?_) none
  rw [List.mem_singleton.mp hentry]
  exact hgroup

theorem load_textEntries (h : lib.Lawful) (hconverts : lib.Converts floatText)
    (hfile : fileEntries lib files [] path = .ok (textEntries p s origin outer)) :
    load lib files path [] = .ok { logging := LogSettings.withText s p } := by
  have hplain : Plain lib (textEntries p s origin outer) := by
    intro key hkey
    rw [List.mem_singleton.mp hkey]
    exact Or.inl (show "logging" ∈ topNames by decide)
  have hgroup : (Tree.table (textEntries p s origin outer) none).HasTable "logging" :=
    fun part hpart => ⟨_, _, (Option.some.inj hpart).symm⟩
  refine (hplain.load_eq_ok_iff h hfile (keyed_textEntries p s) Addressed.nil hgroup _).mpr
    fun leaf => ?_
  cases leaf with
  | sequenceHistory => rfl
  | maxStreams => rfl
  | logging q =>
    rw [show (Leaf.logging q).fromVariables lib [] = none from rfl, Option.none_or]
    by_cases hq : p = q
    · subst hq
      have hat : (Tree.table (textEntries p s origin outer) none).at? (Leaf.logging p).path =
          some (.leaf (.text s) origin) := by
        cases p <;> rfl
      rw [hat]
      exact hconverts.readLogPart_text p s origin
    · have hat : (Tree.table (textEntries p s origin outer) none).at? (Leaf.logging q).path = none := by
        cases p <;> cases q <;> first | rfl | exact absurd rfl hq
      rw [hat]
      exact congrArg Except.ok (LogSettings.view_withText_of_ne hq s).symm

/-- A text setting that a variable gives is what the variable's text is read as, written anew, and
loading does not fail. It is the text itself, as a file gives it, just if that is how its value is
written: truth values in lower case, integers of 64 bits without a plus sign, needless zeros or a
minus sign before zero, and other numbers as the library writes them. All other texts stay. -/
theorem load_eq_written (h : lib.Lawful) (hconverts : lib.Converts floatText) (files : lib.Files) :
    load lib files none [(p.variableName, s)] =
      .ok { logging := LogSettings.withText (written floatText s) p } ∧
    (∀ path origin outer, fileEntries lib files [] path = .ok (textEntries p s origin outer) →
      load lib files path [] = .ok { logging := LogSettings.withText s p } ∧
      (load lib files none [(p.variableName, s)] = load lib files path [] ↔
        written floatText s = s)) ∧
    (IsTruth s → (written floatText s = s ↔ s = "true" ∨ s = "false")) ∧
    (∀ n, integer? s = some n →
      (written floatText s = s ↔ s.toList.head? ≠ some '+' ∧
        ¬Digits.HasLeadingZero (Digits.sign s.toList).2 ∧ s ≠ "-0")) ∧
    (¬IsTruth s → integer? s = none →
      (∀ x, Binary64.parse? s = some x → written floatText s = floatText x) ∧
      (Binary64.parse? s = none → written floatText s = s)) := by
  have hvariable := load_variable p s h hconverts files
  refine ⟨hvariable, fun path origin outer hfile => ?_, Environment.written_eq_self_of_isTruth,
    fun n => Environment.written_eq_self_of_integer?, fun htruth hint => ⟨fun x hx => ?_, fun hx => ?_⟩⟩
  · have htext := load_textEntries p s h hconverts hfile
    refine ⟨htext, ?_⟩
    rw [hvariable, htext]
    constructor
    · intro heq
      exact LogSettings.withText_injective (congrArg Settings.logging (Except.ok.inj heq))
    · intro heq
      rw [heq]
  · simp only [written, if_neg htruth, hint, hx]
  · simp only [written, if_neg htruth, hint, hx]

/-- A folder with a file that gives one text. -/
def folderWith : Folder String :=
  ⟨[(["relay.json"], (Json.obj [("logging", .obj [(LogSettings.parts.name p, .str s)])]).render)]⟩

theorem fileEntries_folderWith (vars : List (String × String)) :
    fileEntries .workplace (folderWith p s) vars (some "relay.json") =
      .ok (textEntries p s (some (.file "relay.json")) (some (.file "relay.json"))) := by
  have hfits : (Json.obj [("logging", .obj [(LogSettings.parts.name p, .str s)])]).Fits
      Json.maxDepth :=
    ⟨by decide, List.nodup_singleton _, ⟨by decide, List.nodup_singleton _, trivial, trivial⟩, trivial⟩
  exact fileEntries_render hfits vars

/-- An integer and a word that stay, and a truth value and a number that do not. -/
theorem load_eq_written_forms :
    ConfigLibrary.workplace.Lawful ∧ ConfigLibrary.workplace.Converts (Binary64.render .plain) ∧
    integer? "-12" = some (-12) ∧
    load .workplace (folderWith .filePath "-12") none [("RELAY_LOGGING__FILE_PATH", "-12")] =
      load .workplace (folderWith .filePath "-12") (some "relay.json") [] ∧
    IsTruth "True" ∧
    load .workplace (folderWith .level "True") none [("RELAY_LOGGING__LEVEL", "True")] ≠
      load .workplace (folderWith .level "True") (some "relay.json") [] ∧
    load .workplace (folderWith .format "1.50") none [("RELAY_LOGGING__FORMAT", "1.50")] =
      .ok { logging := { format := "1.5" } } ∧
    load .workplace (folderWith .format "json") none [("RELAY_LOGGING__FORMAT", "json")] =
      .ok { logging := { format := "json" } } := by
  have h := ConfigLibrary.workplace_lawful
  have hconverts := ConfigLibrary.workplace_converts
  have hint : integer? "-12" = some (-12) := by decide +kernel
  have htruth : IsTruth "True" := by decide +kernel
  have hwritten : written (Binary64.render .plain) "1.50" = "1.5" := by decide +kernel
  obtain ⟨-, hfile, -, hintegers, -⟩ :=
    load_eq_written .filePath "-12" h hconverts (folderWith .filePath "-12")
  obtain ⟨-, hlevel, htruths, -, -⟩ :=
    load_eq_written .level "True" h hconverts (folderWith .level "True")
  obtain ⟨hnumber, -⟩ := load_eq_written .format "1.50" h hconverts (folderWith .format "1.50")
  obtain ⟨hword, -, -, -, hothers⟩ :=
    load_eq_written .format "json" h hconverts (folderWith .format "json")
  have hsame := (hfile _ _ _ (fileEntries_folderWith _ _ [])).2
  have htruthSame := (hlevel _ _ _ (fileEntries_folderWith _ _ [])).2
  refine ⟨h, hconverts, hint, hsame.mpr ((hintegers _ hint).mpr (by decide +kernel)), htruth,
    fun heq => ?_, ?_, ?_⟩
  · exact absurd ((htruths htruth).mp (htruthSame.mp heq)) (by decide)
  · rw [hwritten] at hnumber
    exact hnumber
  · rw [(hothers (by decide +kernel) (by decide +kernel)).2 (by decide +kernel)] at hword
    exact hword

/-- Needless zeros are lost. -/
theorem load_ne_verbatim_zeros :
    ConfigLibrary.workplace.Lawful ∧ ConfigLibrary.workplace.Converts (Binary64.render .plain) ∧
    load .workplace ⟨[]⟩ none [("RELAY_LOGGING__LEVEL", "007")] =
      .ok { logging := { level := "7" } } ∧
    load .workplace ⟨[]⟩ none [("RELAY_LOGGING__LEVEL", "007")] ≠
      .ok { logging := { level := "007" } } := by
  have h := ConfigLibrary.workplace_lawful
  have hconverts := ConfigLibrary.workplace_converts
  have hwritten : written (Binary64.render .plain) "007" = "7" := by decide +kernel
  have hload := load_variable .level "007" h hconverts ⟨[]⟩
  rw [hwritten] at hload
  refine ⟨h, hconverts, hload, fun heq => ?_⟩
  have hlevel : "7" = "007" :=
    congrArg (fun s : Settings => s.logging.level) (Except.ok.inj (hload.symm.trans heq))
  exact absurd hlevel (by decide)

end Settings

end Renumber
