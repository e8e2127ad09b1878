import Renumber.Json.Reader
import Renumber.Json.Writer
import Renumber.Proofs.Numerals

/-! Texts of JSON values. A value without floating-point numbers is read back from its text, with the
members of its objects in order. -/
namespace Renumber.Json

/-! ### The characters of a text -/

/-- The characters of a value's text. -/
def chars (v : Json) : List Char := v.render.toList

/-- The characters of items, with a comma before each but the first. -/
def itemChars (first : Bool) (items : List Json) : List Char := (writeItems "" first items).toList

def memberChars (first : Bool) (members : List (String × Json)) : List Char :=
  (writeMembers "" first members).toList

/-- The comma before an item or a member that is not the first. -/
def comma (first : Bool) : List Char := if first then [] else [',']

theorem toList_ite_comma (first : Bool) (text : String) :
    (if first then text else text ++ ",").toList = text.toList ++ comma first := by
  cases first
  · exact String.toList_append
  · exact (List.append_nil _).symm

mutual

/-- A text is only appended to. -/
theorem toList_write (text : String) : ∀ v : Json, (write text v).toList = text.toList ++ chars v
  | .null => by
    simp only [chars, render, write, String.toList_append, String.toList_empty, List.nil_append]
  | .bool b => by
    simp only [chars, render, write, String.toList_append, String.toList_empty, List.nil_append]
  | .int n => by
    simp only [chars, render, write, String.toList_append, String.toList_empty, List.nil_append]
  | .float x => by
    simp only [chars, render, write, String.toList_append, String.toList_empty, List.nil_append]
  | .str s => by
    simp only [chars, render, write, String.toList_append, String.toList_empty, List.nil_append]
  | .arr items => by
    simp only [chars, render, write, String.toList_append]
    rw [toList_writeItems (text ++ "["), toList_writeItems ("" ++ "[")]
    simp [String.toList_append]
  | .obj members => by
    simp only [chars, render, write, String.toList_append]
    rw [toList_writeMembers (text ++ "\x7b"), toList_writeMembers ("" ++ "\x7b")]
    simp [String.toList_append]

theorem toList_writeItems (text : String) (first : Bool) :
    ∀ items : List Json, (writeItems text first items).toList = text.toList ++ itemChars first items
  | [] => by simp [itemChars, writeItems]
  | item :: rest => by
    simp only [itemChars, writeItems]
    rw [toList_writeItems _ false rest, toList_writeItems (write _ item) false rest,
      toList_write _ item, toList_write (if first then "" else _) item, toList_ite_comma,
      toList_ite_comma]
    simp

theorem toList_writeMembers (text : String) (first : Bool) : ∀ members : List (String × Json),
    (writeMembers text first members).toList = text.toList ++ memberChars first members
  | [] => by simp [memberChars, writeMembers]
  | (key, value) :: rest => by
    simp only [memberChars, writeMembers, writeMember]
    rw [toList_writeMembers _ false rest, toList_writeMembers (write _ value) false rest,
      toList_write _ value, toList_write (_ ++ _ ++ _) value]
    simp only [String.toList_append, toList_ite_comma, String.toList_empty, List.append_assoc,
      List.nil_append]

end

/-- What stands between quotation marks. -/
def escaped (s : String) : List Char := s.toList.flatMap escapeChar

theorem chars_str (s : String) : chars (.str s) = '"' :: (escaped s ++ ['"']) := by
  rw [chars, render, write, renderString, String.toList_append, String.toList_ofList,
    String.toList_ofList]
  rfl

theorem chars_int (n : ℤ) : chars (.int n) = (toString n).toList := by
  rw [chars, render, write, String.toList_append]
  rfl

theorem chars_arr (items : List Json) :
    chars (.arr items) = '[' :: (itemChars true items ++ [']']) := by
  rw [chars, render, write, String.toList_append, toList_writeItems]
  rfl

theorem chars_obj (members : List (String × Json)) :
    chars (.obj members) = '\x7b' :: (memberChars true members ++ ['\x7d']) := by
  rw [chars, render, write, String.toList_append, toList_writeMembers]
  rfl

theorem itemChars_cons (first : Bool) (item : Json) (rest : List Json) :
    itemChars first (item :: rest) = comma first ++ (chars item ++ itemChars false rest) := by
  rw [itemChars, writeItems, toList_writeItems, toList_write, toList_ite_comma]
  simp only [String.toList_empty, List.nil_append, List.append_assoc]

theorem memberChars_cons (first : Bool) (key : String) (value : Json)
    (rest : List (String × Json)) : memberChars first ((key, value) :: rest) =
      comma first ++ '"' :: (escaped key ++ '"' :: ':' :: (chars value ++ memberChars false rest)) := by
  rw [memberChars, writeMembers, writeMember, toList_writeMembers, toList_write, renderString]
  simp only [String.toList_append, toList_ite_comma, String.toList_empty, String.toList_ofList]
  simp [escaped]

/-! ### Reading of strings -/

/-- Escapes of controls are read as their number. -/
theorem unit?_control : ∀ high < 2, ∀ low < 16,
    unit? ['0', '0', Nat.digitChar high, Nat.digitChar low] = some (high * 16 + low) := by
  decide

theorem readString_escapeChar (acc : List Char) (c : Char) (cs : List Char) :
    readString acc (escapeChar c ++ cs) = readString (c :: acc) cs := by
  unfold escapeChar
  split
  · next hmark =>
    rcases hmark with rfl | rfl <;> rfl
  split
  · next h => subst h; rfl
  split
  · next h => subst h; rfl
  split
  · next h => subst h; rfl
  split
  · next h => subst h; rfl
  split
  · next h => subst h; rfl
  split
  · next hcontrol =>
    have hunit := unit?_control (c.toNat / 16) (by omega) (c.toNat % 16) (by omega)
    have hc : c.toNat / 16 * 16 + c.toNat % 16 = c.toNat := by omega
    have hlow : c.toNat < 0xD800 ∨ 0xE000 ≤ c.toNat := by omega
    rw [hc] at hunit
    simp only [List.cons_append, List.nil_append, readString, hunit, if_pos hlow, Char.ofNat_toNat]
  · next hmark _ _ _ _ _ hcontrol =>
    rw [not_or] at hmark
    rw [List.singleton_append, readString.eq_def]
    split
    · next heq => exact absurd (List.cons.inj heq).1 hmark.1
    · next heq => exact absurd (List.cons.inj heq).1 hmark.2
    · next heq => exact absurd (List.cons.inj heq).1 hmark.2
    · next heq =>
      obtain ⟨rfl, rfl⟩ := List.cons.inj heq
      rw [if_neg hcontrol]
    · next heq => exact absurd heq (List.cons_ne_nil c cs)

/-- A string is read up to its closing mark. -/
theorem readString_escaped (s : String) (rest : List Char) :
    readString [] (escaped s ++ '"' :: rest) = some (s, rest) := by
  have hread : ∀ acc cs, readString acc (cs.flatMap escapeChar ++ '"' :: rest) =
      some (String.ofList (acc.reverse ++ cs), rest) := by
    intro acc cs
    induction cs generalizing acc with
    | nil => simp [readString]
    | cons c cs ih =>
      rw [List.flatMap_cons, List.append_assoc, readString_escapeChar, ih, List.reverse_cons,
        List.append_assoc]
      rfl
  rw [escaped, hread, List.reverse_nil, List.nil_append, String.ofList_toList]

/-! ### Reading of numbers -/

/-- What may follow a value: the end, or a mark that no number goes on with. -/
def Ends (rest : List Char) : Prop := ∀ c ∈ rest.head?, c = ',' ∨ c = ']' ∨ c = '\x7d'

theorem Ends.takeWhile_isDigit {rest : List Char} (h : Ends rest) :
    rest.takeWhile (Digits.isDigit 10) = [] := by
  cases rest with
  | nil => rfl
  | cons c rest =>
    rw [List.takeWhile_cons]
    rcases h c rfl with rfl | rfl | rfl <;> rfl

theorem takeWhile_digits {ds rest : List Char} (hds : ∀ c ∈ ds, c.isDigit) (h : Ends rest) :
    (ds ++ rest).takeWhile (Digits.isDigit 10) = ds := by
  rw [List.takeWhile_append_of_pos, h.takeWhile_isDigit, List.append_nil]
  intro c hc
  rw [Digits.isDigit_ten_eq, hds c hc]

theorem dropWhile_digits {ds rest : List Char} (hds : ∀ c ∈ ds, c.isDigit) (h : Ends rest) :
    (ds ++ rest).dropWhile (Digits.isDigit 10) = rest := by
  have happend := List.takeWhile_append_dropWhile (p := Digits.isDigit 10) (l := ds ++ rest)
  rw [takeWhile_digits hds h] at happend
  exact List.append_cancel_left happend

theorem Ends.fractionPart {rest : List Char} (h : Ends rest) :
    Binary64.fractionPart rest = (none, rest) := by
  cases rest with
  | nil => rfl
  | cons c rest => rcases h c rfl with rfl | rfl | rfl <;> rfl

theorem Ends.readExponent {rest : List Char} (h : Ends rest) :
    readExponent rest = some (none, rest) := by
  cases rest with
  | nil => rfl
  | cons c rest => rcases h c rfl with rfl | rfl | rfl <;> rfl

/-- The digits of a number are read up to what follows, with or without a sign before them. -/
theorem readNumber_digits (negative : Bool) {n : ℕ} {rest : List Char} (h : Ends rest)
    {value : Json} (hvalue : ofNumber? negative (Nat.toDigits 10 n) none none = some value) :
    readNumber ((if negative then ['-'] else []) ++ (Nat.toDigits 10 n ++ rest)) =
      some (value, rest) := by
  have hdigits : ∀ c ∈ Nat.toDigits 10 n, c.isDigit := fun c hc => Digits.isDigit_of_mem_toDigits hc
  have hwhole : ¬(Nat.toDigits 10 n = [] ∨
      (Nat.toDigits 10 n).head? = some '0' ∧ 1 < (Nat.toDigits 10 n).length) :=
    not_or.mpr ⟨Nat.toDigits_ne_nil, Digits.not_hasLeadingZero_toDigits n⟩
  have hunsigned : ∀ cs, Nat.toDigits 10 n ++ rest = '-' :: cs → False := by
    intro cs hcs
    obtain ⟨c, ds, hds⟩ := List.exists_cons_of_ne_nil (Nat.toDigits_ne_nil (n := n) (b := 10))
    rw [hds] at hcs
    obtain ⟨rfl, -⟩ := List.cons.inj hcs
    exact absurd (hdigits '-' (hds ▸ List.mem_cons_self)) (by decide)
  unfold readNumber
  cases negative with
  | true =>
    simp only [if_true, List.singleton_append, takeWhile_digits hdigits h,
      dropWhile_digits hdigits h, h.fractionPart, if_neg hwhole, h.readExponent]
    simp [hvalue]
  | false =>
    simp only [Bool.false_eq_true, if_false, List.nil_append]
    simp only [takeWhile_digits hdigits h,
      dropWhile_digits hdigits h, h.fractionPart, if_neg hwhole, h.readExponent]
    simp [hvalue]

/-- An integer of 64 bits, with or without sign, is read back. -/
theorem readNumber_toString {n : ℤ} (hlow : Int64.minValue.toInt ≤ n) (hhigh : n < UInt64.size)
    {rest : List Char} (h : Ends rest) :
    readNumber ((toString n).toList ++ rest) = some (.int n, rest) := by
  rw [Digits.toList_toString]
  split
  · next hn =>
    have hvalue : ofNumber? false (Nat.toDigits 10 n.toNat) none none = some (.int n) := by
      have hsize : n.toNat < UInt64.size := by omega
      simp only [ofNumber?, Digits.value_toDigits, Option.isNone_none, Bool.and_true, Bool.not_false,
        decide_eq_true hsize, if_true, Int.toNat_of_nonneg hn]
    exact readNumber_digits false h hvalue
  · next hn =>
    have hvalue : ofNumber? true (Nat.toDigits 10 (-n).toNat) none none = some (.int n) := by
      have hpos : 0 < (-n).toNat := by omega
      have hback : -(((-n).toNat : ℕ) : ℤ) = n := by omega
      have hfits : Digits.isInt64 n = true := by
        have hmax : Int64.maxValue.toInt = 9223372036854775807 := rfl
        rw [Digits.isInt64, decide_eq_true_eq]
        exact ⟨hlow, by omega⟩
      simp only [ofNumber?, Digits.value_toDigits, hback, hfits, decide_eq_true hpos,
        Option.isNone_none, Bool.and_true, Bool.not_true, Bool.and_false, Bool.false_and,
        Bool.false_eq_true, if_false, if_true]
    exact readNumber_digits true h hvalue

/-! ### Reading of values -/

mutual

/-- The value is read back from its text: it nests less deep than so many levels, no object has a name
twice, integers have 64 bits, and there are no floating-point numbers, which may be read as their
neighbours. -/
def Fits (depth : ℕ) : Json → Prop
  | .int n => Int64.minValue.toInt ≤ n ∧ n < UInt64.size
  | .float _ => False
  | .arr items => 1 < depth ∧ ItemsFit (depth - 1) items
  | .obj members => 1 < depth ∧ (members.map Prod.fst).Nodup ∧ MembersFit (depth - 1) members
  | _ => True

def ItemsFit (depth : ℕ) : List Json → Prop
  | [] => True
  | item :: rest => Fits depth item ∧ ItemsFit depth rest

def MembersFit (depth : ℕ) : List (String × Json) → Prop
  | [] => True
  | (_, value) :: rest => Fits depth value ∧ MembersFit depth rest

end

mutual

/-- The value with the members of all objects in order. Of equal keys the last one stays. -/
def arranged : Json → Json
  | .arr items => .arr (arrangedItems items)
  | .obj members => .obj (arrangedMembers [] members)
  | v => v

def arrangedItems : List Json → List Json
  | [] => []
  | item :: rest => arranged item :: arrangedItems rest

def arrangedMembers (acc : List (String × Json)) : List (String × Json) → List (String × Json)
  | [] => acc
  | (key, value) :: rest => arrangedMembers (insert key (arranged value) acc) rest

end

theorem skipBlanks_cons {c : Char} {cs : List Char} (h : isBlank c = false) :
    skipBlanks (c :: cs) = c :: cs := by
  rw [skipBlanks, List.dropWhile_cons, h]
  rfl

theorem exists_toString_eq (n : ℤ) :
    ∃ c cs, (toString n).toList = c :: cs ∧ (c.isDigit ∨ c = '-') := by
  rw [Digits.toList_toString]
  split
  · obtain ⟨c, cs, hcs⟩ := List.exists_cons_of_ne_nil (Nat.toDigits_ne_nil (n := n.toNat) (b := 10))
    exact ⟨c, cs, hcs, Or.inl (Digits.isDigit_of_mem_toDigits (hcs ▸ List.mem_cons_self))⟩
  · exact ⟨_, _, rfl, Or.inr rfl⟩

/-- Nothing else begins as a number does. -/
theorem ne_of_isDigit {c : Char} (hc : c.isDigit ∨ c = '-') :
    ∀ mark ∈ [' ', '\t', '\n', '\r', '"', '[', ']', '\x7b', 'n', 't', 'f'], c ≠ mark := by
  have hmarks : [' ', '\t', '\n', '\r', '"', '[', ']', '\x7b', 'n', 't', 'f'].all
      fun mark => !(mark.isDigit || mark == '-') := by
    decide
  rintro mark hmark rfl
  have hmark := List.all_eq_true.mp hmarks c hmark
  rcases hc with hdigit | rfl
  · rw [hdigit] at hmark
    cases hmark
  · exact absurd hmark (by decide)

/-- A value does not begin with a blank, and is told from the end of an array. -/
theorem exists_chars_eq {depth : ℕ} {v : Json} (hv : v.Fits depth) :
    ∃ c cs, chars v = c :: cs ∧ isBlank c = false ∧ c ≠ ']' := by
  cases v with
  | null => exact ⟨'n', _, rfl, rfl, by decide⟩
  | bool b => cases b
              · exact ⟨'f', _, rfl, rfl, by decide⟩
              · exact ⟨'t', _, rfl, rfl, by decide⟩
  | int n =>
    obtain ⟨c, cs, hcs, hc⟩ := exists_toString_eq n
    have hne := ne_of_isDigit hc
    exact ⟨c, cs, (chars_int n).trans hcs, by simp [isBlank, hne], hne ']' (by decide)⟩
  | float x => exact hv.elim
  | str s => exact ⟨'"', _, chars_str s, rfl, by decide⟩
  | arr items => exact ⟨'[', _, chars_arr items, rfl, by decide⟩
  | obj members => exact ⟨'\x7b', _, chars_obj members, rfl, by decide⟩

theorem readValue_number {fuel depth : ℕ} {c : Char} (hc : c.isDigit ∨ c = '-') (cs : List Char) :
    readValue (fuel + 1) depth (c :: cs) = readNumber (c :: cs) := by
  have hne := ne_of_isDigit hc
  rw [readValue, skipBlanks_cons (by simp [isBlank, hne])]
  split
  · next heq => exact absurd (List.cons.inj heq).1 (hne _ (by decide))
  · next heq => exact absurd (List.cons.inj heq).1 (hne _ (by decide))
  · next heq => exact absurd (List.cons.inj heq).1 (hne _ (by decide))
  · next heq => exact absurd (List.cons.inj heq).1 (hne _ (by decide))
  · next heq => exact absurd (List.cons.inj heq).1 (hne _ (by decide))
  · next heq => exact absurd (List.cons.inj heq).1 (hne _ (by decide))
  · rfl

theorem itemChars_false (item : Json) (rest : List Json) :
    itemChars false (item :: rest) = ',' :: itemChars true (item :: rest) := by
  rw [itemChars_cons, itemChars_cons]
  rfl

theorem memberChars_false (member : String × Json) (rest : List (String × Json)) :
    memberChars false (member :: rest) = ',' :: memberChars true (member :: rest) := by
  rw [memberChars_cons, memberChars_cons]
  rfl

theorem ends_itemChars (items : List Json) (rest : List Char) :
    Ends (itemChars false items ++ ']' :: rest) := by
  cases items with
  | nil => exact fun c hc => Or.inr (Or.inl (Option.some.inj hc).symm)
  | cons item items =>
    rw [itemChars_false]
    exact fun c hc => Or.inl (Option.some.inj hc).symm

theorem ends_memberChars (members : List (String × Json)) (rest : List Char) :
    Ends (memberChars false members ++ '\x7d' :: rest) := by
  cases members with
  | nil => exact fun c hc => Or.inr (Or.inr (Option.some.inj hc).symm)
  | cons member members =>
    rw [memberChars_false]
    exact fun c hc => Or.inl (Option.some.inj hc).symm

mutual

/-- A value is read back. The fuel covers the characters of its text. -/
theorem readValue_chars {depth : ℕ} (fuel : ℕ) {rest : List Char} (hrest : Ends rest) :
    ∀ v : Json, v.Fits depth → (chars v).length ≤ fuel →
      readValue (fuel + 1) depth (chars v ++ rest) = some (v.arranged, rest)
  | .null, _, _ => rfl
  | .bool true, _, _ => rfl
  | .bool false, _, _ => rfl
  | .int n, hv, _ => by
    obtain ⟨c, cs, hcs, hc⟩ := exists_toString_eq n
    have hread := readNumber_toString hv.1 hv.2 hrest
    rw [hcs] at hread
    rw [chars_int, hcs]
    exact (readValue_number hc (cs ++ rest)).trans hread
  | .float _, hv, _ => hv.elim
  | .str s, _, _ => by
    rw [chars_str, List.cons_append, List.append_assoc, readValue, skipBlanks_cons rfl]
    simp only [List.singleton_append, readString_escaped]
    rfl
  | .arr [], hv, _ => by
    rw [chars_arr, readValue]
    simp only [List.cons_append, skipBlanks_cons (show isBlank '[' = false from rfl),
      if_neg (Nat.not_le.mpr hv.1)]
    rfl
  | .arr (item :: items), hv, hfuel => by
    obtain ⟨c, cs, hcs, hblank, hclose⟩ := exists_chars_eq hv.2.1
    have hhead : itemChars true (item :: items) = c :: (cs ++ itemChars false items) := by
      rw [itemChars_cons, hcs]
      rfl
    have hlength : (itemChars true (item :: items)).length + 2 ≤ fuel := by
      rw [chars_arr] at hfuel
      simp only [List.length_cons, List.length_append] at hfuel
      omega
    have hread := readItems_itemChars fuel [] item items rest hv.2 hlength
    have hskip : skipBlanks (itemChars true (item :: items) ++ ']' :: rest) =
        itemChars true (item :: items) ++ ']' :: rest := by
      rw [hhead]
      exact skipBlanks_cons hblank
    rw [chars_arr, readValue]
    simp only [List.cons_append, skipBlanks_cons (show isBlank '[' = false from rfl),
      if_neg (Nat.not_le.mpr hv.1), List.append_assoc, List.nil_append, hskip]
    split
    · next heq =>
      rw [hhead] at heq
      exact absurd (List.cons.inj heq).1 hclose
    · exact hread
  | .obj [], hv, _ => by
    rw [chars_obj, readValue]
    simp only [List.cons_append, skipBlanks_cons (show isBlank '\x7b' = false from rfl),
      if_neg (Nat.not_le.mpr hv.1)]
    rfl
  | .obj ((key, value) :: members), hv, hfuel => by
    have hlength : (memberChars true ((key, value) :: members)).length + 2 ≤ fuel := by
      rw [chars_obj] at hfuel
      simp only [List.length_cons, List.length_append] at hfuel
      omega
    have hread := readMembers_memberChars fuel [] key value members rest hv.2.2 hlength
    rw [memberChars_cons] at hread
    rw [chars_obj, readValue, memberChars_cons]
    simp only [List.cons_append, skipBlanks_cons (show isBlank '\x7b' = false from rfl),
      if_neg (Nat.not_le.mpr hv.1), List.append_assoc, List.nil_append, comma, if_true,
      skipBlanks_cons (show isBlank '"' = false from rfl)]
    simpa [comma, arranged] using hread

theorem readItems_itemChars {depth : ℕ} (fuel : ℕ) (acc : List Json) (item : Json) :
    ∀ (items : List Json) (rest : List Char), ItemsFit depth (item :: items) →
      (itemChars true (item :: items)).length + 2 ≤ fuel →
      readItems fuel depth acc (itemChars true (item :: items) ++ ']' :: rest) =
        some (.arr (acc.reverse ++ arrangedItems (item :: items)), rest) := by
  intro items rest hfits hfuel
  obtain ⟨c, cs, hcs, -, -⟩ := exists_chars_eq hfits.1
  rw [itemChars_cons, comma, if_pos rfl, List.nil_append, List.length_append] at hfuel
  obtain ⟨fuel, rfl⟩ : ∃ n, fuel = n + 2 := ⟨fuel - 2, by omega⟩
  have hread := readValue_chars fuel (ends_itemChars items rest) item hfits.1 (by omega)
  rw [itemChars_cons, comma, if_pos rfl, List.nil_append, List.append_assoc, readItems, hread]
  cases items with
  | nil =>
    change some (Json.arr (item.arranged :: acc).reverse, rest) = _
    rw [List.reverse_cons]
    rfl
  | cons next items =>
    have hlength : (itemChars true (next :: items)).length + 2 ≤ fuel + 1 := by
      rw [itemChars_false, hcs] at hfuel
      simp only [List.length_cons] at hfuel
      omega
    have hrest := readItems_itemChars (fuel + 1) (item.arranged :: acc) next items rest hfits.2 hlength
    simp only [itemChars_false, List.cons_append, skipBlanks_cons (show isBlank ',' = false from rfl),
      hrest, List.reverse_cons, List.append_assoc]
    rfl

theorem readMembers_memberChars {depth : ℕ} (fuel : ℕ) (acc : List (String × Json)) (key : String)
    (value : Json) : ∀ (members : List (String × Json)) (rest : List Char),
      MembersFit depth ((key, value) :: members) →
      (memberChars true ((key, value) :: members)).length + 2 ≤ fuel →
      readMembers fuel depth acc (memberChars true ((key, value) :: members) ++ '\x7d' :: rest) =
        some (.obj (arrangedMembers acc ((key, value) :: members)), rest) := by
  intro members rest hfits hfuel
  rw [memberChars_cons, comma, if_pos rfl, List.nil_append] at hfuel
  simp only [List.length_cons, List.length_append] at hfuel
  obtain ⟨fuel, rfl⟩ : ∃ n, fuel = n + 2 := ⟨fuel - 2, by omega⟩
  have hread := readValue_chars fuel (ends_memberChars members rest) value hfits.1 (by omega)
  rw [memberChars_cons, comma, if_pos rfl, List.nil_append, readMembers]
  simp only [List.cons_append, List.append_assoc, skipBlanks_cons (show isBlank '"' = false from rfl),
    readString_escaped, skipBlanks_cons (show isBlank ':' = false from rfl), hread]
  cases members with
  | nil => rfl
  | cons next members =>
    obtain ⟨nextKey, nextValue⟩ := next
    have hlength : (memberChars true ((nextKey, nextValue) :: members)).length + 2 ≤ fuel + 1 := by
      rw [memberChars_false] at hfuel
      simp only [List.length_cons] at hfuel
      omega
    have hrest := readMembers_memberChars (fuel + 1) (insert key value.arranged acc) nextKey
      nextValue members rest hfits.2 hlength
    simp only [memberChars_false, List.cons_append,
      skipBlanks_cons (show isBlank ',' = false from rfl), hrest]
    rfl

end

/-- A value is read back from its text, with the members of its objects in order. -/
theorem parse?_render {v : Json} (hv : v.Fits maxDepth) : parse? v.render = some v.arranged := by
  have hread := readValue_chars (chars v).length (fun _ h => nomatch h : Ends []) v hv (Nat.le_refl _)
  rw [List.append_nil] at hread
  change readValue (v.render.toList.length + 1) maxDepth v.render.toList = _ at hread
  simp only [parse?, hread]
  rfl

end Renumber.Json
