import Renumber.Codec
import Renumber.Proofs.JsonLaws

/-! The library of JSON values and records has the laws of such libraries. -/
namespace Renumber

namespace Json

variable {σ : Type} {P : Parts σ} {decode : (p : P.Part) → Json → Except ReadError (P.Value p)}
  {fields : List (Field σ)}

/-! ### Fields -/

/-- The fields of a record are its parts. -/
structure Field.Covers (fields : List (Field σ)) (P : Parts σ)
    (decode : (p : P.Part) → Json → Except ReadError (P.Value p)) : Prop where
  names : fields.map Field.name = P.names
  put : ∀ field ∈ fields, ∀ p, P.name p = field.name →
    ∀ s value, field.put s value = P.set p s <$> decode p value

theorem find?_eq_some {field : Field σ} (hnodup : (fields.map Field.name).Nodup)
    (hfield : field ∈ fields) : fields.find? (·.name = field.name) = some field := by
  rw [List.find?_eq_some_iff_append]
  obtain ⟨before, after, rfl⟩ := List.append_of_mem hfield
  refine ⟨by simp, before, after, rfl, fun other hother => ?_⟩
  rw [List.map_append, List.nodup_append] at hnodup
  have hne : other.name ≠ field.name :=
    hnodup.2.2 _ (List.mem_map_of_mem hother) _ List.mem_cons_self
  simpa using hne

theorem Field.Covers.reads (h : Field.Covers fields P decode) :
    P.Reads decode fun record (name, value) =>
      match fields.find? (·.name = name) with
      | some field => field.put record value
      | none => .ok record where
  known s p value := by
    have hmem : P.name p ∈ fields.map Field.name := h.names ▸ P.mem_names_iff.mpr ⟨p, rfl⟩
    obtain ⟨field, hfield, hname⟩ := List.mem_map.mp hmem
    simp only [← hname, find?_eq_some (h.names ▸ P.nodup_names) hfield]
    exact h.put field hfield p hname.symm s value
  unknown s name value hname := by
    have hnone : fields.find? (·.name = name) = none := by
      rw [List.find?_eq_none]
      intro field hfield heq
      have hmem : field.name ∈ P.names := h.names ▸ List.mem_map_of_mem hfield
      obtain ⟨p, hp⟩ := P.mem_names_iff.mp hmem
      exact hname p (hp.trans (by simpa using heq))
    simp only [hnone]

theorem readPartial_arr (expected : String) {items : List Json}
    (hlength : items.length ≤ fields.length) (s : σ) :
    readPartial expected fields s (.arr items) = putItems fields s items := by
  simp only [readPartial, if_neg (Nat.not_lt.mpr hlength)]
  exact bind_pure _

theorem putItems_concat {items : List Json} {field : Field σ}
    (hfield : fields[items.length]? = some field) (s : σ) (value : Json) :
    putItems fields s (items ++ [value]) = putItems fields s items >>= (field.put · value) := by
  rw [putItems, Entries.zip_concat hfield, List.foldlM_append]
  exact congrArg (putItems fields s items >>= ·) (funext fun record => bind_pure _)

/-- The items of an array are put into the fields one by one. -/
theorem Field.Covers.derivesItems (h : Field.Covers fields P decode) (expected : String) (s : σ) :
    P.DerivesItems decode s fun items => readPartial expected fields s (.arr items) where
  nil := by
    rw [readPartial_arr expected (Nat.zero_le _), putItems, List.zip_nil_right]
    rfl
  concat {items p} value hp s' := by
    have hname : (fields.map Field.name)[items.length]? = some (P.name p) := by
      rw [h.names, Parts.names, List.getElem?_map, hp]
      rfl
    rw [List.getElem?_map, Option.map_eq_some_iff] at hname
    obtain ⟨field, hfield, hname⟩ := hname
    have hshort : items.length < fields.length := (List.getElem?_eq_some_iff.mp hfield).1
    have hlength : (items ++ [value]).length ≤ fields.length := by
      rwa [List.length_append, List.length_singleton]
    rw [readPartial_arr expected hlength, readPartial_arr expected (Nat.le_of_lt hshort),
      putItems_concat hfield]
    cases putItems fields s items with
    | error e =>
      refine iff_of_false (fun heq => by cases heq) ?_
      rintro ⟨_, _, _, hs, _⟩
      cases hs
    | ok s'' =>
      change field.put s'' value = .ok s' ↔ _
      rw [h.put field (List.mem_of_getElem? hfield) p hname.symm]
      cases decode p value with
      | error e =>
        refine iff_of_false (fun heq => by cases heq) ?_
        rintro ⟨_, _, hx, _⟩
        cases hx
      | ok x =>
        constructor
        · intro heq
          exact ⟨x, s'', rfl, rfl, Except.ok.inj heq⟩
        · rintro ⟨_, _, hx, hs, heq⟩
          cases hx
          cases hs
          exact congrArg Except.ok heq

theorem Field.Covers.readsJson (h : Field.Covers fields P decode) (expected : String) (s : σ) :
    P.ReadsJson decode s (readPartial expected fields s) where
  obj := h.reads.derives s
  arr := h.derivesItems expected s

/-! ### Members in order -/

theorem arrangedItems_eq_map (items : List Json) : arrangedItems items = items.map arranged := by
  induction items with
  | nil => rfl
  | cons item rest ih => exact congrArg (item.arranged :: ·) ih

theorem insert_perm {key : String} {value : Json} {acc : List (String × Json)}
    (h : key ∉ acc.map Prod.fst) : (insert key value acc).Perm ((key, value) :: acc) := by
  induction acc with
  | nil => exact List.Perm.refl _
  | cons entry rest ih =>
    obtain ⟨k, x⟩ := entry
    rw [List.map_cons, List.mem_cons, not_or] at h
    rw [insert]
    split
    · exact List.Perm.refl _
    · rw [if_neg h.1]
      exact ((ih h.2).cons (k, x)).trans (List.Perm.swap ..)

/-- Putting members with different names in order loses none of them. -/
theorem arrangedMembers_perm {acc members : List (String × Json)}
    (h : ((acc ++ members).map Prod.fst).Nodup) :
    (arrangedMembers acc members).Perm (acc ++ members.map (Prod.map id arranged)) := by
  induction members generalizing acc with
  | nil => exact List.Perm.of_eq (List.append_nil acc).symm
  | cons member rest ih =>
    obtain ⟨key, value⟩ := member
    have hmiddle : (acc ++ (key, value) :: rest).Perm ((key, value) :: (acc ++ rest)) :=
      List.perm_middle
    have hnodup := ((hmiddle.map Prod.fst).nodup_iff).mp h
    have hkey : key ∉ acc.map Prod.fst := fun hmem => by
      rw [List.map_cons, List.nodup_cons, List.map_append] at hnodup
      exact hnodup.1 (List.mem_append_left _ hmem)
    have hinsert : (insert key value.arranged acc).Perm ((key, value.arranged) :: acc) :=
      insert_perm hkey
    have hrest := @ih (insert key value.arranged acc)
      ((((hinsert.append_right rest).map Prod.fst).nodup_iff).mpr hnodup)
    exact hrest.trans ((hinsert.append_right _).trans List.perm_middle.symm)

theorem MembersFit.fits {depth : ℕ} {members : List (String × Json)} (h : MembersFit depth members) :
    ∀ member ∈ members, member.2.Fits depth := by
  induction members with
  | nil => exact fun _ hmember => absurd hmember List.not_mem_nil
  | cons member rest ih => exact List.forall_mem_cons.mpr ⟨h.1, ih h.2⟩

theorem ItemsFit.fits {depth : ℕ} {items : List Json} (h : ItemsFit depth items) :
    ∀ item ∈ items, item.Fits depth := by
  induction items with
  | nil => exact fun _ hitem => absurd hitem List.not_mem_nil
  | cons item rest ih => exact List.forall_mem_cons.mpr ⟨h.1, ih h.2⟩

theorem mem_of_lookup_zip {names : List String} {items : List Json} {name : String} {value : Json}
    (h : (names.zip items).lookup name = some value) : value ∈ items := by
  obtain ⟨before, after, heq, -⟩ := List.lookup_eq_some_iff.mp h
  have hmem : (name, value) ∈ names.zip items := heq ▸ List.mem_append_right _ List.mem_cons_self
  exact (List.of_mem_zip hmem).2

/-- What a record is read as does not change when the members of all objects are put in order, if that
is so for its parts. -/
theorem Field.Covers.readPartial_arranged (h : Field.Covers fields P decode) (expected : String)
    (hdecode : ∀ p value depth, value.Fits depth → ∀ x, decode p value = .ok x →
      decode p value.arranged = .ok x)
    {v : Json} {depth : ℕ} (hv : v.Fits depth) {s s' : σ}
    (hread : readPartial expected fields s v = .ok s') :
    readPartial expected fields s v.arranged = .ok s' := by
  have hjson := h.readsJson expected s
  cases v with
  | null | bool | int | float | str => exact hread
  | obj members =>
    obtain ⟨-, hnodup, hfit⟩ := hv
    have hperm : (arrangedMembers [] members).Perm (members.map (Prod.map id arranged)) :=
      @arrangedMembers_perm [] members hnodup
    have harranged : ((arrangedMembers [] members).map Prod.fst).Nodup := by
      rw [(hperm.map Prod.fst).nodup_iff, List.map_map]
      exact hnodup
    have hgives := (hjson.obj.eq_ok_iff hnodup s').mp hread
    have hlookup : ∀ p, (arrangedMembers [] members).lookup (P.name p) =
        (members.lookup (P.name p)).map arranged := by
      intro p
      rw [Entries.lookup_of_perm hperm harranged, Entries.lookup_map]
    refine (hjson.obj.eq_ok_iff harranged s').mpr (hgives.map hlookup fun p value hvalue => ?_)
    exact hdecode p value _ (hfit.fits _ ((Entries.lookup_eq_some_iff_mem hnodup).mp hvalue))
  | arr items =>
    obtain ⟨-, hfit⟩ := hv
    have hfields : fields.length = P.order.length := by
      have hlength := congrArg List.length h.names
      rwa [Parts.names, List.length_map, List.length_map] at hlength
    have hlength : items.length ≤ P.order.length := by
      by_contra hlong
      have hlong : fields.length < items.length := by omega
      simp only [readPartial, if_pos hlong] at hread
      cases hput : putItems fields s items with
      | error e => rw [hput] at hread; cases hread
      | ok s'' => rw [hput] at hread; cases hread
    have hgives := (hjson.arr.eq_ok_iff hlength s').mp hread
    have hlookup : ∀ p, (P.names.zip (items.map arranged)).lookup (P.name p) =
        ((P.names.zip items).lookup (P.name p)).map arranged := by
      intro p
      rw [List.zip_map_right, Entries.lookup_map]
    rw [arranged, arrangedItems_eq_map]
    refine (hjson.arr.eq_ok_iff (by rwa [List.length_map]) s').mpr
      (hgives.map hlookup fun p value hvalue => ?_)
    exact hdecode p value _ (hfit.fits _ (mem_of_lookup_zip hvalue))

/-- What has no parts is read as before. -/
theorem read_arranged {α : Type} {read : Json → Except ReadError α}
    (harr : ∀ items x, read (.arr items) ≠ .ok x) (hobj : ∀ members x, read (.obj members) ≠ .ok x)
    {v : Json} {x : α} (h : read v = .ok x) : read v.arranged = .ok x := by
  cases v with
  | null | bool | int | float | str => exact h
  | arr items => exact absurd h (harr items x)
  | obj members => exact absurd h (hobj members x)

end Json

/-! ### The library -/

open JsonLibrary

theorem LogSettings.fields_covers : Json.Field.Covers fields parts builtin.readLogPart where
  names := rfl
  put field hfield p hname s value := by
    simp only [fields, List.mem_cons, List.not_mem_nil, or_false] at hfield
    rcases hfield with rfl | rfl | rfl <;> cases p <;>
      first | rfl | exact absurd hname (by decide)

theorem Settings.fields_covers : Json.Field.Covers fields parts builtin.readPart where
  names := rfl
  put field hfield p hname s value := by
    simp only [fields, List.mem_cons, List.not_mem_nil, or_false] at hfield
    rcases hfield with rfl | rfl | rfl <;> cases p <;>
      first | rfl | exact absurd hname (by decide)

theorem LogSettings.ofJson_arranged {v : Json} {depth : ℕ} (hv : v.Fits depth) {s : LogSettings}
    (h : ofJson v = .ok s) : ofJson v.arranged = .ok s := by
  refine fields_covers.readPartial_arranged _ (fun p value depth _ x hx => ?_) hv h
  cases p with
  | level => exact Json.read_arranged (fun _ _ h => by cases h) (fun _ _ h => by cases h) hx
  | format => exact Json.read_arranged (fun _ _ h => by cases h) (fun _ _ h => by cases h) hx
  | filePath => exact Json.read_arranged (fun _ _ h => by cases h) (fun _ _ h => by cases h) hx

theorem Settings.ofJson_arranged {v : Json} {depth : ℕ} (hv : v.Fits depth) {s : Settings}
    (h : ofJson v = .ok s) : ofJson v.arranged = .ok s := by
  refine fields_covers.readPartial_arranged _ (fun p value depth hvalue x hx => ?_) hv h
  cases p with
  | sequenceHistory => exact Json.read_arranged (fun _ _ h => by cases h) (fun _ _ h => by cases h) hx
  | maxStreams => exact Json.read_arranged (fun _ _ h => by cases h) (fun _ _ h => by cases h) hx
  | logging => exact LogSettings.ofJson_arranged hvalue hx

theorem Json.readUInt64_nat (expected : String) (n : UInt64) :
    readUInt64 expected (.nat n.toNat) = .ok n := by
  have hsize : (0 : ℤ) ≤ n.toNat ∧ (n.toNat : ℤ) < UInt64.size := by
    have := n.toNat_lt_size
    omega
  rw [nat, readUInt64, if_pos hsize, Int.toNat_natCast, UInt64.ofNat_toNat]

theorem Settings.ofJson_parse?_render {v : Json} (hv : v.Fits Json.maxDepth) {s : Settings}
    (h : ofJson v = .ok s) : (Json.parse? v.render).map ofJson = some (.ok s) := by
  rw [Json.parse?_render hv, Option.map_some, ofJson_arranged hv h]

theorem JsonLibrary.builtin_lawful : builtin.Lawful where
  readUInt64_nat n := by
    rw [show builtin.readUInt64 = Json.readUInt64 "usize" from rfl]
    exact Json.readUInt64_nat "usize" n
  readText_str _ := rfl
  readOptText_optStr s := by cases s <;> rfl
  readLogging := LogSettings.fields_covers.readsJson _ {}
  readSettings := Settings.fields_covers.readsJson _ {}
  writeSettings_eq _ := rfl
  fromText_render hv hread := Settings.ofJson_parse?_render hv hread

end Renumber
