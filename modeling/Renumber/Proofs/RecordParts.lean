import Renumber.Proofs.Entries
import Renumber.Settings
import Mathlib.Data.List.Induction
import Mathlib.Data.Nat.Notation
import Mathlib.Logic.Function.Basic

/-! Records that are read entry by entry. Each name belongs to one part of the record, so entries
with different names do not disturb each other: in the end every part is what its own entry says, and
has its default if there is none. -/
namespace Renumber

/-- The parts of a record. They have names, are seen and set one by one, and make up the record. -/
structure Parts (σ : Type) where
  Part : Type
  Value : Part → Type
  name : Part → String
  /-- The parts as they are declared. -/
  order : List Part
  view : (p : Part) → σ → Value p
  set : (p : Part) → σ → Value p → σ
  name_injective : Function.Injective name
  nodup_order : order.Nodup
  mem_order : ∀ p, p ∈ order
  view_set : ∀ p s x, view p (set p s x) = x
  view_set_of_ne : ∀ {p q : Part} s x, p ≠ q → view p (set q s x) = view p s
  ext : ∀ {s s' : σ}, (∀ p, view p s = view p s') → s = s'

namespace Parts

variable {σ β ε : Type} {P : Parts σ} {decode : (p : P.Part) → β → Except ε (P.Value p)}

/-- The names of all parts. -/
def names (P : Parts σ) : List String := P.order.map P.name

theorem nodup_names (P : Parts σ) : P.names.Nodup := P.nodup_order.map P.name_injective

theorem mem_names_iff {name : String} : name ∈ P.names ↔ ∃ p, P.name p = name := by
  rw [names, List.mem_map]
  exact ⟨fun ⟨p, _, hp⟩ => ⟨p, hp⟩, fun ⟨p, hp⟩ => ⟨p, P.mem_order p, hp⟩⟩

/-- A table with the names of the parts has nothing under other names. -/
theorem lookup_eq_none_of_ne {γ : Type} {table : List (String × γ)}
    (htable : table.map Prod.fst = P.names) {name : String} (hname : ∀ p, P.name p ≠ name) :
    table.lookup name = none := by
  refine Entries.lookup_eq_none fun hmem => ?_
  rw [htable, mem_names_iff] at hmem
  obtain ⟨p, hp⟩ := hmem
  exact hname p hp

theorem set_set_of_ne {p q : P.Part} (h : p ≠ q) (s : σ) (x : P.Value p) (y : P.Value q) :
    P.set q (P.set p s x) y = P.set p (P.set q s y) x := by
  refine P.ext fun r => ?_
  by_cases hrq : r = q
  · subst hrq
    rw [P.view_set, P.view_set_of_ne _ _ (Ne.symm h), P.view_set]
  · rw [P.view_set_of_ne _ _ hrq]
    by_cases hrp : r = p
    · subst hrp
      rw [P.view_set, P.view_set]
    · rw [P.view_set_of_ne _ _ hrp, P.view_set_of_ne _ _ hrp, P.view_set_of_ne _ _ hrq]

/-- What a part comes to: the value of its entry, or else the one it had. -/
def result (P : Parts σ) (decode : (p : P.Part) → β → Except ε (P.Value p)) (s : σ)
    (entries : List (String × β)) (p : P.Part) : Except ε (P.Value p) :=
  (entries.lookup (P.name p)).elim (.ok (P.view p s)) (decode p)

/-- All parts come to those of a record. -/
def Gives (P : Parts σ) (decode : (p : P.Part) → β → Except ε (P.Value p)) (default : σ)
    (entries : List (String × β)) (s : σ) : Prop :=
  ∀ p, P.result decode default entries p = .ok (P.view p s)

theorem gives_nil_iff {default s : σ} : P.Gives decode default [] s ↔ s = default := by
  constructor
  · exact fun h => P.ext fun p => (Except.ok.inj (h p)).symm
  · rintro rfl p
    rfl

/-- All parts still come to the same if their values are changed to ones that are decoded alike. -/
theorem Gives.map {default s : σ} {entries entries' : List (String × β)} {f : β → β}
    (h : P.Gives decode default entries s)
    (hlookup : ∀ p, entries'.lookup (P.name p) = (entries.lookup (P.name p)).map f)
    (hdecode : ∀ p value, entries.lookup (P.name p) = some value →
      ∀ x, decode p value = .ok x → decode p (f value) = .ok x) :
    P.Gives decode default entries' s := by
  intro p
  have hp := h p
  rw [result] at hp ⊢
  rw [hlookup]
  cases hvalue : entries.lookup (P.name p) with
  | none =>
    rw [hvalue] at hp
    exact hp
  | some value =>
    rw [hvalue] at hp
    exact hdecode p value hvalue _ hp

/-- One more entry for a part that had none sets this part to what the entry says. -/
theorem gives_iff_of_new {default s : σ} {entries entries' : List (String × β)} {p : P.Part}
    {value : β} (hnone : entries.lookup (P.name p) = none)
    (hvalue : entries'.lookup (P.name p) = some value)
    (hsame : ∀ q, q ≠ p → entries'.lookup (P.name q) = entries.lookup (P.name q)) :
    P.Gives decode default entries' s ↔
      ∃ x s', decode p value = .ok x ∧ P.Gives decode default entries s' ∧ P.set p s' x = s := by
  have hp : P.result decode default entries' p = decode p value := by rw [result, hvalue]; rfl
  have hq : ∀ q, q ≠ p →
      P.result decode default entries' q = P.result decode default entries q := by
    intro q hq
    rw [result, result, hsame q hq]
  constructor
  · intro h
    refine ⟨P.view p s, P.set p s (P.view p default), hp.symm.trans (h p), fun q => ?_, ?_⟩
    · by_cases hqp : q = p
      · subst hqp
        rw [result, hnone, P.view_set]
        rfl
      · rw [P.view_set_of_ne _ _ hqp, ← hq q hqp]
        exact h q
    · refine P.ext fun q => ?_
      by_cases hqp : q = p
      · subst hqp
        rw [P.view_set]
      · rw [P.view_set_of_ne _ _ hqp, P.view_set_of_ne _ _ hqp]
  · rintro ⟨x, s', hx, h, rfl⟩ q
    by_cases hqp : q = p
    · subst hqp
      rw [hp, hx, P.view_set]
    · rw [hq q hqp, P.view_set_of_ne _ _ hqp]
      exact h q

/-! ### Reading of entries -/

/-- A record is read from entries with different names. An entry with the name of a part sets that
part to what it is decoded to, others are skipped, and parts without an entry have their defaults. -/
structure Derives (P : Parts σ) (decode : (p : P.Part) → β → Except ε (P.Value p)) (default : σ)
    (read : List (String × β) → Except ε σ) : Prop where
  nil : read [] = .ok default
  known {entries : List (String × β)} (p : P.Part) (value : β) :
    ((P.name p :: entries.map Prod.fst).Nodup) → ∀ s, read ((P.name p, value) :: entries) = .ok s ↔
      ∃ x s', decode p value = .ok x ∧ read entries = .ok s' ∧ P.set p s' x = s
  unknown {entries : List (String × β)} {name : String} (value : β) :
    (∀ p, P.name p ≠ name) → ((name :: entries.map Prod.fst).Nodup) →
      ∀ s, read ((name, value) :: entries) = .ok s ↔ read entries = .ok s

/-- Entries are read just when each part's entry is, in whatever order they stand, and each part is
what its entry says. -/
theorem Derives.eq_ok_iff {default : σ} {read : List (String × β) → Except ε σ}
    (h : P.Derives decode default read) {entries : List (String × β)}
    (hnodup : (entries.map Prod.fst).Nodup) (s : σ) :
    read entries = .ok s ↔ P.Gives decode default entries s := by
  induction entries generalizing s with
  | nil =>
    rw [h.nil, gives_nil_iff]
    exact ⟨fun heq => (Except.ok.inj heq).symm, fun heq => congrArg Except.ok heq.symm⟩
  | cons entry rest ih =>
    obtain ⟨name, value⟩ := entry
    have hrest := (List.nodup_cons.mp hnodup).2
    by_cases hname : ∃ p, P.name p = name
    · obtain ⟨p, rfl⟩ := hname
      have hfresh : rest.lookup (P.name p) = none :=
        Entries.lookup_eq_none (List.nodup_cons.mp hnodup).1
      rw [h.known p value hnodup, gives_iff_of_new hfresh (List.lookup_cons_self ..) fun q hq => ?_]
      · simp only [ih hrest]
      · rw [List.lookup_cons, beq_false_of_ne fun heq => hq (P.name_injective heq)]
    · have hskip : ∀ p, P.name p ≠ name := fun p heq => hname ⟨p, heq⟩
      rw [h.unknown value hskip hnodup, ih hrest]
      refine forall_congr' fun p => ?_
      rw [result, result, List.lookup_cons, beq_false_of_ne (hskip p)]

/-- A record is read from items in the order of its parts. Each item is decoded to its part, and parts
without an item have their defaults. -/
structure DerivesItems (P : Parts σ) (decode : (p : P.Part) → β → Except ε (P.Value p))
    (default : σ) (read : List β → Except ε σ) : Prop where
  nil : read [] = .ok default
  concat {items : List β} {p : P.Part} (value : β) : P.order[items.length]? = some p →
    ∀ s, read (items ++ [value]) = .ok s ↔
      ∃ x s', decode p value = .ok x ∧ read items = .ok s' ∧ P.set p s' x = s

/-- Items are read as the entries that have them under the names of the first parts. -/
theorem DerivesItems.eq_ok_iff {default : σ} {read : List β → Except ε σ}
    (h : P.DerivesItems decode default read) {items : List β}
    (hlength : items.length ≤ P.order.length) (s : σ) :
    read items = .ok s ↔ P.Gives decode default (P.names.zip items) s := by
  induction items using List.reverseRecOn generalizing s with
  | nil =>
    rw [h.nil, List.zip_nil_right, gives_nil_iff]
    exact ⟨fun heq => (Except.ok.inj heq).symm, fun heq => congrArg Except.ok heq.symm⟩
  | append_singleton items value ih =>
    rw [List.length_append, List.length_singleton] at hlength
    obtain ⟨p, hp⟩ : ∃ p, P.order[items.length]? = some p :=
      ⟨_, List.getElem?_eq_getElem hlength⟩
    have hname : P.names[items.length]? = some (P.name p) := by
      rw [names, List.getElem?_map, hp]
      rfl
    have hzip := Entries.zip_concat hname value
    have hfresh : (P.names.zip items).lookup (P.name p) = none := by
      have hnodup := Entries.nodup_keys_zip P.nodup_names (items ++ [value])
      rw [hzip, List.map_append, List.nodup_append] at hnodup
      exact Entries.lookup_eq_none fun hmem => hnodup.2.2 _ hmem _ (List.mem_singleton_self _) rfl
    have hvalue : (P.names.zip items ++ [(P.name p, value)]).lookup (P.name p) = some value := by
      rw [List.lookup_append, hfresh, Option.none_or, List.lookup_cons_self]
    have hsame : ∀ q, q ≠ p → (P.names.zip items ++ [(P.name p, value)]).lookup (P.name q) =
        (P.names.zip items).lookup (P.name q) := by
      intro q hq
      rw [List.lookup_append, List.lookup_cons, beq_false_of_ne fun heq => hq (P.name_injective heq)]
      exact Option.or_none
    rw [h.concat value hp, hzip, gives_iff_of_new hfresh hvalue hsame]
    simp only [ih (Nat.le_of_lt hlength)]

/-- A step takes one entry. An entry with the name of a part sets that part, and others are
skipped. -/
structure Reads (P : Parts σ) (decode : (p : P.Part) → β → Except ε (P.Value p))
    (step : σ → String × β → Except ε σ) : Prop where
  known : ∀ s p value, step s (P.name p, value) = P.set p s <$> decode p value
  unknown : ∀ s name value, (∀ p, P.name p ≠ name) → step s (name, value) = .ok s

variable {step : σ → String × β → Except ε σ}

/-- A part that has no entry is set before the others are read, or after that. -/
theorem Reads.foldlM_set (h : P.Reads decode step) {entries : List (String × β)} {p : P.Part}
    (hfresh : P.name p ∉ entries.map Prod.fst) (s : σ) (x : P.Value p) :
    entries.foldlM step (P.set p s x) = (P.set p · x) <$> entries.foldlM step s := by
  induction entries generalizing s with
  | nil => rfl
  | cons entry rest ih =>
    obtain ⟨name, value⟩ := entry
    rw [List.map_cons, List.mem_cons, not_or] at hfresh
    rw [List.foldlM_cons, List.foldlM_cons]
    by_cases hname : ∃ q, P.name q = name
    · obtain ⟨q, rfl⟩ := hname
      have hpq : p ≠ q := fun heq => hfresh.1 (congrArg P.name heq)
      rw [h.known, h.known]
      cases decode q value with
      | error e => rfl
      | ok y =>
        change rest.foldlM step (P.set q (P.set p s x) y) = _ <$> rest.foldlM step (P.set q s y)
        rw [set_set_of_ne hpq, ih hfresh.2]
    · have hskip : ∀ q, P.name q ≠ name := fun q heq => hname ⟨q, heq⟩
      rw [h.unknown _ _ _ hskip, h.unknown _ _ _ hskip]
      exact ih hfresh.2 s

/-- Taking entries step by step reads a record. -/
theorem Reads.derives (h : P.Reads decode step) (default : σ) :
    P.Derives decode default fun entries => entries.foldlM step default where
  nil := rfl
  known {entries} p value hnodup s := by
    rw [List.foldlM_cons, h.known]
    cases decode p value with
    | error e =>
      refine iff_of_false (fun heq => by cases heq) ?_
      rintro ⟨_, _, hx, _⟩
      cases hx
    | ok x =>
      change entries.foldlM step (P.set p default x) = .ok s ↔ _
      rw [h.foldlM_set (List.nodup_cons.mp hnodup).1]
      cases entries.foldlM step default with
      | error e =>
        refine iff_of_false (fun heq => by cases heq) ?_
        rintro ⟨_, _, _, hs, _⟩
        cases hs
      | ok s' =>
        constructor
        · intro heq
          exact ⟨x, s', rfl, rfl, Except.ok.inj heq⟩
        · rintro ⟨_, _, hx, hs, heq⟩
          cases hx
          cases hs
          exact congrArg Except.ok heq
  unknown {entries} name value hskip _ s := by
    rw [List.foldlM_cons, h.unknown default name value hskip]
    rfl

end Parts

namespace LogSettings

inductive Part where
  | level
  | format
  | filePath
  deriving DecidableEq

def parts : Parts LogSettings where
  Part := Part
  Value := fun
    | .level | .format => String
    | .filePath => Option String
  name := fun
    | .level => "level"
    | .format => "format"
    | .filePath => "file_path"
  order := [.level, .format, .filePath]
  view := fun
    | .level, s => s.level
    | .format, s => s.format
    | .filePath, s => s.filePath
  set := fun
    | .level, s, x => { s with level := x }
    | .format, s, x => { s with format := x }
    | .filePath, s, x => { s with filePath := x }
  name_injective := by
    intro p q h
    cases p <;> cases q <;> first | rfl | exact absurd h (by decide)
  nodup_order := by decide
  mem_order p := by cases p <;> decide
  view_set := by
    intro p s x
    cases p <;> rfl
  view_set_of_ne := by
    intro p q s x h
    cases p <;> cases q <;> first | rfl | exact absurd rfl h
  ext := by
    intro s s' h
    cases s
    cases s'
    obtain rfl := h .level
    obtain rfl := h .format
    obtain rfl := h .filePath
    rfl

end LogSettings

namespace Settings

inductive Part where
  | sequenceHistory
  | maxStreams
  | logging
  deriving DecidableEq

def parts : Parts Settings where
  Part := Part
  Value := fun
    | .sequenceHistory | .maxStreams => UInt64
    | .logging => LogSettings
  name := fun
    | .sequenceHistory => "sequence_history"
    | .maxStreams => "max_streams"
    | .logging => "logging"
  order := [.sequenceHistory, .maxStreams, .logging]
  view := fun
    | .sequenceHistory, s => s.sequenceHistory
    | .maxStreams, s => s.maxStreams
    | .logging, s => s.logging
  set := fun
    | .sequenceHistory, s, x => { s with sequenceHistory := x }
    | .maxStreams, s, x => { s with maxStreams := x }
    | .logging, s, x => { s with logging := x }
  name_injective := by
    intro p q h
    cases p <;> cases q <;> first | rfl | exact absurd h (by decide)
  nodup_order := by decide
  mem_order p := by cases p <;> decide
  view_set := by
    intro p s x
    cases p <;> rfl
  view_set_of_ne := by
    intro p q s x h
    cases p <;> cases q <;> first | rfl | exact absurd rfl h
  ext := by
    intro s s' h
    cases s
    cases s'
    obtain rfl := h .sequenceHistory
    obtain rfl := h .maxStreams
    obtain rfl := h .logging
    rfl

/-- The names of the settings that are not below another. -/
def topNames : List String := ["sequence_history", "max_streams", "logging"]

end Settings

end Renumber
