import Renumber.Decimal.Shortest
import Renumber.Json
import Renumber.Text.Quoted

/-! Reading of records from JSON values. -/
namespace Renumber.Json

/-- Why a value is not read. -/
inductive ReadError where
  /-- Another kind of value is expected. -/
  | wrongType (found : Json) (expected : String)
  /-- The kind is right and the value is not. -/
  | wrongValue (found : Int) (expected : String)
  | missingField (name : String)
  /-- An array ends before all fields are set. -/
  | tooShort (length : Nat) (expected : String)
  /-- An array goes on after all fields are set. -/
  | tooLong (length : Nat)
  deriving Repr, BEq

def describe : Json → String
  | .null => "null"
  | .bool b => "boolean `" ++ (if b then "true" else "false") ++ "`"
  | .int n => "integer `" ++ toString n ++ "`"
  | .float x => "floating point `" ++ x.render .scientific ++ "`"
  | .str s => "string " ++ Text.quoted s
  | .arr _ => "sequence"
  | .obj _ => "map"

def ReadError.message : ReadError → String
  | .wrongType found expected => "invalid type: " ++ found.describe ++ ", expected " ++ expected
  | .wrongValue found expected =>
    "invalid value: integer `" ++ toString found ++ "`, expected " ++ expected
  | .missingField name => "missing field `" ++ name ++ "`"
  | .tooShort length expected => "invalid length " ++ toString length ++ ", expected " ++ expected
  | .tooLong length =>
    "invalid length " ++ toString length ++ ", expected fewer elements in array"

def readUInt64 (expected : String) : Json → Except ReadError UInt64
  | .int n =>
    if 0 ≤ n ∧ n < UInt64.size then .ok (UInt64.ofNat n.toNat) else .error (.wrongValue n expected)
  | other => .error (.wrongType other expected)

def readText : Json → Except ReadError String
  | .str s => .ok s
  | other => .error (.wrongType other "a string")

def readOptText : Json → Except ReadError (Option String)
  | .null => .ok none
  | other => some <$> readText other

/-- A field of a record: its name, and how a value is put into it. -/
structure Field (σ : Type) where
  name : String
  put : σ → Json → Except ReadError σ

/-- Puts the members with a known name into a record. Others are skipped. -/
def putMembers {σ : Type} (fields : List (Field σ)) (record : σ) (members : List (String × Json)) :
    Except ReadError σ :=
  members.foldlM (fun record (name, value) =>
    match fields.find? (·.name = name) with
    | some field => field.put record value
    | none => .ok record) record

def putItems {σ : Type} (fields : List (Field σ)) (record : σ) (items : List Json) :
    Except ReadError σ :=
  (fields.zip items).foldlM (fun record (field, value) => field.put record value) record

/-- Reads a record from an object, or from an array in the order of the fields. Fields that are
absent keep the values of the given record. -/
def readPartial {σ : Type} (expected : String) (fields : List (Field σ)) (record : σ) :
    Json → Except ReadError σ
  | .obj members => putMembers fields record members
  | .arr items => do
    let record ← putItems fields record items
    if fields.length < items.length then .error (.tooLong items.length) else .ok record
  | other => .error (.wrongType other expected)

def readComplete {σ : Type} (expected : String) (fields : List (Field σ)) (record : σ)
    (value : Json) : Except ReadError σ := do
  let record ← readPartial expected fields record value
  match value with
  | .arr items =>
    if items.length < fields.length then
      .error (.tooShort items.length (expected ++ s!" with {fields.length} elements"))
    else .ok record
  | _ =>
    match fields.find? fun field => (value.get? field.name).isNone with
    | some field => .error (.missingField field.name)
    | none => .ok record

end Renumber.Json
