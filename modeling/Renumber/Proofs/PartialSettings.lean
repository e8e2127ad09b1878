import Renumber.Proofs.JsonBuiltin

/-! Settings of which only some are given. What is present is read in whatever order and among
unknown names, as an object or as the array of its first values, and all else keeps its default. -/
namespace Renumber

namespace Json

/-- A value that holds those members of a full object whose names are chosen. -/
inductive Shows (full : List (String × Json)) : List String → Json → Prop where
  /-- The members stand in any order, among others with names of their own. -/
  | object {chosen : List String} {members others : List (String × Json)}
      (perm : members.Perm (full.filter (·.1 ∈ chosen) ++ others))
      (fresh : ((full ++ others).map Prod.fst).Nodup) : Shows full chosen (.obj members)
  /-- The values of the first members, in order. -/
  | array (count : ℕ) :
      Shows full ((full.take count).map Prod.fst) (.arr ((full.take count).map Prod.snd))

variable {σ ε : Type} {P : Parts σ} {decode : (p : P.Part) → Json → Except ε (P.Value p)}
  {read : Json → Except ε σ} {full : List (String × Json)} {chosen : List String} {v : Json}

theorem lookup_take (full : List (String × Json)) (count : ℕ) (name : String) :
    (full.take count).lookup name =
      if name ∈ (full.take count).map Prod.fst then full.lookup name else none := by
  induction full generalizing count with
  | nil => simp
  | cons entry rest ih =>
    obtain ⟨key, value⟩ := entry
    cases count with
    | zero => rfl
    | succ count =>
      simp only [List.take_succ_cons, List.lookup_cons, List.map_cons, List.mem_cons]
      by_cases hkey : name = key
      · simp only [hkey, beq_self_eq_true, true_or, if_true]
      · simp only [beq_false_of_ne hkey, hkey, false_or, ih count]

theorem zip_take (full : List (String × Json)) (count : ℕ) :
    (full.map Prod.fst).zip ((full.take count).map Prod.snd) = full.take count := by
  induction full generalizing count with
  | nil => simp
  | cons entry rest ih =>
    cases count with
    | zero => rfl
    | succ count => exact congrArg (entry :: ·) (ih count)

theorem nodup_of_perm {members others : List (String × Json)}
    (hperm : members.Perm (full.filter (·.1 ∈ chosen) ++ others))
    (hfresh : ((full ++ others).map Prod.fst).Nodup) : (members.map Prod.fst).Nodup := by
  rw [(hperm.map Prod.fst).nodup_iff]
  exact hfresh.sublist ((List.filter_sublist.append (List.Sublist.refl others)).map Prod.fst)

/-- Each shape is read by its entries. -/
theorem Shows.exists_entries (hv : Shows full chosen v) {default : σ}
    (hread : P.ReadsJson decode default read) (hnames : full.map Prod.fst = P.names) :
    ∃ entries : List (String × Json),
      (∀ p, entries.lookup (P.name p) =
        if P.name p ∈ chosen then full.lookup (P.name p) else none) ∧
      ∀ s, read v = .ok s ↔ P.Gives decode default entries s := by
  cases hv with
  | @object _ members others hperm hfresh =>
    have hmembers := nodup_of_perm hperm hfresh
    refine ⟨members, fun p => ?_, hread.obj.eq_ok_iff hmembers⟩
    have hname : P.name p ∈ full.map Prod.fst := hnames ▸ P.mem_names_iff.mpr ⟨p, rfl⟩
    have hother : others.lookup (P.name p) = none := by
      rw [List.map_append, List.nodup_append] at hfresh
      exact Entries.lookup_eq_none fun hmem => hfresh.2.2 _ hname _ hmem rfl
    rw [Entries.lookup_of_perm hperm hmembers, List.lookup_append, hother, Option.or_none,
      Entries.lookup_filter]
  | array count =>
    have hlength : ((full.take count).map Prod.snd).length ≤ P.order.length := by
      rw [List.length_map, ← List.length_map P.name, ← Parts.names, ← hnames, List.length_map]
      exact List.length_take_le' count full
    refine ⟨full.take count, fun p => lookup_take full count _, fun s => ?_⟩
    rw [hread.arr.eq_ok_iff hlength, ← hnames, zip_take]

/-- A full object shows all of itself. -/
theorem Shows.all (hnodup : (full.map Prod.fst).Nodup) :
    Shows full (full.map Prod.fst) (.obj full) := by
  refine @Shows.object _ _ _ [] ?_ ?_
  · have hall : full.filter (·.1 ∈ full.map Prod.fst) = full :=
      List.filter_eq_self.mpr fun entry hentry => decide_eq_true (List.mem_map_of_mem hentry)
    rw [hall, List.append_nil]
  · rwa [List.append_nil]

/-- What is shown of a record's full object is read as the chosen parts of the record, over the
defaults. -/
theorem Shows.read_eq (hv : Shows full chosen v) {default record kept : σ}
    (hread : P.ReadsJson decode default read) (hnames : full.map Prod.fst = P.names)
    (hfull : ∀ p, (full.lookup (P.name p)).map (decode p) = some (.ok (P.view p record)))
    (hkept : ∀ p, P.view p kept =
      if P.name p ∈ chosen then P.view p record else P.view p default) : read v = .ok kept := by
  obtain ⟨entries, hlookup, hiff⟩ := hv.exists_entries hread hnames
  refine (hiff kept).mpr fun p => ?_
  rw [Parts.result, hlookup, hkept]
  split
  · obtain ⟨value, hvalue, hdecode⟩ := Option.map_eq_some_iff.mp (hfull p)
    rw [hvalue]
    exact hdecode
  · rfl

end Json

variable {lib : JsonLibrary}

namespace LogSettings

/-- The chosen settings, and the defaults of the others. -/
def keep (c : LogSettings) (chosen : List String) : LogSettings where
  level := if "level" ∈ chosen then c.level else ({} : LogSettings).level
  format := if "format" ∈ chosen then c.format else ({} : LogSettings).format
  filePath := if "file_path" ∈ chosen then c.filePath else ({} : LogSettings).filePath

variable {c : LogSettings} {chosen : List String} {v : Json}

theorem read_of_shows (h : lib.Lawful) (hv : Json.Shows c.members chosen v) :
    lib.readLogging v = .ok (c.keep chosen) := by
  have hfull : ∀ p, (c.members.lookup (parts.name p)).map (lib.readLogPart p) =
      some (.ok (parts.view p c)) := by
    intro p
    cases p with
    | level => exact congrArg some (h.readText_str c.level)
    | format => exact congrArg some (h.readText_str c.format)
    | filePath => exact congrArg some (h.readOptText_optStr c.filePath)
  exact hv.read_eq h.readLogging rfl hfull fun p => by cases p <;> rfl

end LogSettings

namespace Settings

/-- The chosen settings, and the defaults of the others. -/
def keep (c : Settings) (chosen inner : List String) : Settings where
  sequenceHistory :=
    if "sequence_history" ∈ chosen then c.sequenceHistory else ({} : Settings).sequenceHistory
  maxStreams := if "max_streams" ∈ chosen then c.maxStreams else ({} : Settings).maxStreams
  logging := if "logging" ∈ chosen then c.logging.keep inner else ({} : Settings).logging

/-- A value that holds the chosen settings, and of those of logging the chosen inner ones. -/
def Shows (c : Settings) (chosen inner : List String) (v : Json) : Prop :=
  ∃ logging, Json.Shows c.logging.members inner logging ∧ Json.Shows (c.members logging) chosen v

variable {c : Settings} {chosen inner : List String} {v : Json}

theorem read_of_shows (h : lib.Lawful) (hv : c.Shows chosen inner v) :
    lib.readSettings v = .ok (c.keep chosen inner) := by
  obtain ⟨logging, hlogging, hv⟩ := hv
  have hfull : ∀ p, ((c.members logging).lookup (parts.name p)).map (lib.readPart p) =
      some (.ok (parts.view p { c with logging := c.logging.keep inner })) := by
    intro p
    cases p with
    | sequenceHistory => exact congrArg some (h.readUInt64_nat c.sequenceHistory)
    | maxStreams => exact congrArg some (h.readUInt64_nat c.maxStreams)
    | logging => exact congrArg some (LogSettings.read_of_shows h hlogging)
  exact hv.read_eq h.readSettings rfl hfull fun p => by cases p <;> rfl

theorem shows_members (c : Settings) :
    c.Shows parts.names LogSettings.parts.names (.obj (c.members (.obj c.logging.members))) :=
  ⟨_, .all LogSettings.parts.nodup_names, .all parts.nodup_names⟩

theorem fits_members (c : Settings) :
    (Json.obj (c.members (.obj c.logging.members))).Fits Json.maxDepth := by
  have hnat : ∀ n : UInt64, (Json.nat n.toNat).Fits 127 := by
    intro n
    have hmin : Int64.minValue.toInt = -9223372036854775808 := rfl
    have := n.toNat_lt_size
    exact ⟨by omega, by omega⟩
  have hopt : ∀ s, (Json.optStr s).Fits 126 := by
    intro s
    cases s <;> trivial
  have hlogging : (Json.obj c.logging.members).Fits 127 :=
    ⟨by decide, LogSettings.parts.nodup_names, trivial, trivial, hopt _, trivial⟩
  exact ⟨by decide, parts.nodup_names, hnat _, hnat _, hlogging, trivial⟩

/-- Settings are the defaults plus what is present. The chosen ones are read at both levels from an
object with members in any order and with unknown names among them, or from the array of the first
values, and all others keep their defaults. Any array of values is read as the object that has them
under the first names. What is written is read back, as a value and as a text. -/
theorem read_eq_keep (h : lib.Lawful) (c : Settings) :
    (∀ chosen inner v, c.Shows chosen inner v →
      lib.readSettings v = .ok (c.keep chosen inner) ∧
      (v.Fits Json.maxDepth → lib.fromText (lib.render v) = some (.ok (c.keep chosen inner)))) ∧
    (∀ items : List Json, items.length ≤ 3 →
      (∀ s, lib.readSettings (.arr items) = .ok s ↔
        lib.readSettings (.obj (["sequence_history", "max_streams", "logging"].zip items)) =
          .ok s) ∧
      ∀ s, lib.readLogging (.arr items) = .ok s ↔
        lib.readLogging (.obj (["level", "format", "file_path"].zip items)) = .ok s) ∧
    lib.readSettings (lib.writeSettings c) = .ok c ∧
    lib.fromText (lib.render (lib.writeSettings c)) = some (.ok c) := by
  have hwritten : lib.readSettings (lib.writeSettings c) = .ok c := by
    rw [h.writeSettings_eq]
    exact read_of_shows h c.shows_members
  refine ⟨fun chosen inner v hv => ?_, fun items hlength => ⟨fun s => ?_, fun s => ?_⟩, hwritten, ?_⟩
  · have hread := read_of_shows h hv
    exact ⟨hread, fun hfits => h.fromText_render hfits hread⟩
  · rw [h.readSettings.arr.eq_ok_iff hlength]
    exact (h.readSettings.obj.eq_ok_iff (Entries.nodup_keys_zip parts.nodup_names items) s).symm
  · rw [h.readLogging.arr.eq_ok_iff hlength]
    exact (h.readLogging.obj.eq_ok_iff
      (Entries.nodup_keys_zip LogSettings.parts.nodup_names items) s).symm
  · refine h.fromText_render ?_ hwritten
    rw [h.writeSettings_eq]
    exact c.fits_members

/-- Settings of which two fields are given in reverse order after an unknown one, and of those of
logging the first in an array. -/
theorem read_eq_keep_mixed :
    let c : Settings := ⟨7, 3, "debug", "json", some "a.log"⟩
    let v : Json :=
      .obj [("colour", .bool true), ("logging", .arr [.str "debug"]), ("max_streams", .int 3)]
    JsonLibrary.builtin.Lawful ∧
      c.Shows ["max_streams", "logging"] ["level"] v ∧ v.Fits Json.maxDepth ∧
      ([.int 3, .int 7] : List Json).length ≤ 3 ∧
      JsonLibrary.builtin.readSettings v = .ok ⟨100, 3, "debug", "pretty", none⟩ ∧
      JsonLibrary.builtin.fromText (JsonLibrary.builtin.render v) =
        some (.ok ⟨100, 3, "debug", "pretty", none⟩) ∧
      ∀ s, JsonLibrary.builtin.readSettings (.arr [.int 3, .int 7]) = .ok s ↔
        JsonLibrary.builtin.readSettings
          (.obj [("sequence_history", .int 3), ("max_streams", .int 7)]) = .ok s := by
  intro c v
  have hshows : c.Shows ["max_streams", "logging"] ["level"] v := by
    refine ⟨.arr [.str "debug"], .array 1, ?_⟩
    refine @Json.Shows.object _ _ _ [("colour", .bool true)] ?_ (by decide)
    exact List.reverse_perm
      [("max_streams", Json.int 3), ("logging", .arr [.str "debug"]), ("colour", .bool true)]
  have hfits : v.Fits Json.maxDepth :=
    ⟨by decide, by decide, trivial, ⟨by decide, trivial, trivial⟩, ⟨by decide, by decide⟩, trivial⟩
  have hlength : ([.int 3, .int 7] : List Json).length ≤ 3 := by decide
  obtain ⟨hkeep, harray, -⟩ := read_eq_keep JsonLibrary.builtin_lawful c
  have hv := hkeep _ _ v hshows
  exact ⟨JsonLibrary.builtin_lawful, hshows, hfits, hlength, hv.1, hv.2 hfits,
    (harray _ hlength).1⟩

end Settings

end Renumber
