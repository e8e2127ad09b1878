import Renumber.Logging.Workplace
import Renumber.Proofs.Entries

/-! The host with a working folder does what hosts are documented to do. Files keep all lines that are
appended to them, whether they are in the folder or not, and the rule for the forwarder's own events
goes by their levels. -/
namespace Renumber

namespace Folder

variable {α : Type}

/-- What is put under parts is found under them, and nowhere else. -/
theorem content?_put (f : Folder α) (ps : List String) (content : α) (other : List String) :
    (f.put ps content).content? other = if other = ps then some content else f.content? other :=
  Entries.lookup_set ps content f.files other

theorem place_eq (f : Folder α) (path : String) : f.place path =
    if '\x00' ∈ path.toList then .unnameable
    else if maxPath < path.utf8ByteSize then .tooLong
    else if path = "" then .missing
    else if path.toList.head? = some '/' then f.follow (.system []) (steps path)
    else f.follow (.inside []) (steps path) := by
  rw [place, String.contains_char_eq]
  simp only [decide_eq_true_iff]

end Folder

namespace Workplace

variable {w w' : Workplace} {path : String} {target : LogTarget}

theorem written_append (w : Workplace) (target : LogTarget) (lines : List LogLine)
    (other : LogTarget) : (w.append target lines).written other =
      if other = target then w.written other ++ lines else w.written other := by
  cases target with
  | output => cases other <;> simp [append, written]
  | inside ps =>
    cases other with
    | inside other =>
      by_cases hother : other = ps <;> simp [append, written, Folder.content?_put, hother]
    | output | beyond => simp [append, written]
  | beyond ps =>
    cases other with
    | beyond other =>
      by_cases hother : other = ps <;> simp [append, written, Folder.content?_put, hother]
    | output | inside => simp [append, written]

/-- A file is opened where the path leads, and at most made. -/
theorem eq_append_of_openFile (h : w.openFile path = .ok (w', target)) : w' = w.append target [] := by
  have hopen : ∀ {t : LogTarget}, (if Folder.endsInSlash path then .error .isFolder
      else .ok (w.append t [], t)) = Except.ok (ε := OpenError) (w', target) →
      w' = w.append target [] := by
    intro t ht
    split at ht
    · cases ht
    · cases ht
      rfl
  unfold openFile at h
  cases hplace : w.folder.place path <;> rw [hplace] at h <;> first | exact hopen h | cases h

theorem written_of_openFile (h : w.openFile path = .ok (w', target)) (other : LogTarget) :
    w'.written other = w.written other := by
  rw [eq_append_of_openFile h, written_append, List.append_nil, ite_self]

end Workplace

namespace Filter

/-- The rule for the forwarder's own events of a level and graver ones. -/
def ofLevel (level : Level) : Filter := [{ target := some crateTarget, level := some level }]

theorem ofText_directive (level : Level) : ofText level.directive = ofLevel level := by
  cases level <;> decide +kernel

theorem allows_ofLevel (level : Level) {e : Event} (h : crateTarget.toList <+: e.target.toList) :
    (ofLevel level).allows e = decide (level.rank ≤ e.level.rank) := by
  have happlies :
      Directive.appliesTo { target := some crateTarget, level := some level } e = true := by
    simp only [Directive.appliesTo, Option.isNone_none, Option.all_some, Option.all_none,
      List.isPrefixOf_iff_prefix.mpr h, Bool.and_self]
  simp [allows, deciding, ofLevel, happlies]

end Filter

theorem LogHost.workplace_lawful : LogHost.workplace.Lawful where
  written_open {files files' path file} h other := by
    change (files.openFile path).mapError OpenError.message = _ at h
    cases hopen : Workplace.openFile files path with
    | error e => rw [hopen] at h; cases h
    | ok opened =>
      rw [hopen] at h
      cases h
      exact Workplace.written_of_openFile hopen other
  written_append files file lines :=
    (Workplace.written_append files file lines file).trans (if_pos rfl)
  written_append_of_ne files _ _ lines hne :=
    (Workplace.written_append files _ lines _).trans (if_neg hne)
  allows_directive level e he := by
    change (Filter.ofText level.directive).allows e = _
    rw [Filter.ofText_directive, Filter.allows_ofLevel level he]
  sink?_idle := rfl
  install_of_none {d} sink hnone := by
    obtain rfl : d = none := hnone
    exact ⟨some sink, rfl, rfl⟩
  install_of_some {d sink} later hsome := by
    obtain rfl : d = some sink := hsome
    exact ⟨_, rfl⟩

end Renumber
