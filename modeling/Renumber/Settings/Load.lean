import Renumber.Decimal.Shortest
import Renumber.Folder
import Renumber.Json.Reader
import Renumber.Settings.Environment
import Renumber.Settings.Formats
import Renumber.Settings.Library
import Renumber.Settings.Merge
import Renumber.Text.ByteOrder
import Renumber.Text.Quoted
import Renumber.Toml.Reader

/-! A library of settings in a working folder. -/
namespace Renumber

/-- Why settings are not loaded. -/
inductive LoadError where
  | noFile
  /-- The file is of no known format. -/
  | unknownFormat
  /-- The file is not well-formed or holds no table. -/
  | malformed
  /-- A setting has a value of the wrong kind. -/
  | wrongType (found expected key : String) (origin : Option Origin)
  /-- A group of settings is no table. -/
  | wrongShape (found expected key : String)
  deriving DecidableEq, Repr

def Origin.text : Origin → String
  | .environment => "the environment"
  | .file name => name

/-- The wording of the error. Errors about a whole file have none of their own. -/
def LoadError.message : LoadError → String
  | .noFile => "no file"
  | .unknownFormat => "unknown format"
  | .malformed => "malformed"
  | .wrongType found expected key origin =>
    "invalid type: " ++ found ++ ", expected " ++ expected ++ " for key `" ++ key ++ "`" ++
      match origin with
      | some origin => " in " ++ origin.text
      | none => ""
  | .wrongShape found expected key =>
    "invalid type: " ++ found ++ ", expected " ++ expected ++ " for key `" ++ key ++ "`"

namespace Tree

def describeScalar : Scalar → String
  | .unit => "unit value"
  | .bool b => "boolean `" ++ (if b then "true" else "false") ++ "`"
  | .int n => "integer `" ++ toString n ++ "`"
  | .float x => "floating point `" ++ x.render .pointed ++ "`"
  | .text s => "string " ++ Text.quoted s

/-- An unsigned integer of 64 bits. Truth values, numbers and their texts are converted. -/
def readUInt64 (key : String) : Tree → Except LoadError UInt64
  | .leaf (.bool b) _ => .ok (if b then 1 else 0)
  | .leaf (.int n) origin =>
    if 0 ≤ n then .ok (UInt64.ofNat n.toNat)
    else
      .error (.wrongType ("64-bit integer `" ++ toString n ++ "`")
        "an unsigned 64 bit or less integer" key origin)
  | .leaf (.float x) _ => .ok x.toUInt64
  | .leaf (.text s) origin =>
    let word := Text.lower s
    if word = "true" ∨ word = "on" ∨ word = "yes" then .ok 1
    else if word = "false" ∨ word = "off" ∨ word = "no" then .ok 0
    else
      let digits := match s.toList with
        | '+' :: cs => cs
        | cs => cs
      match (Digits.nat? digits).filter (· < UInt64.size) with
      | some n => .ok (UInt64.ofNat n)
      | none => .error (.wrongType (describeScalar (.text s)) "an integer" key origin)
  | .leaf .unit origin => .error (.wrongType "unit value" "an integer" key origin)
  | .list _ origin => .error (.wrongType "sequence" "an integer" key origin)
  | .table _ origin => .error (.wrongType "map" "an integer" key origin)

/-- A text. Truth values and numbers are written out. -/
def readText (key : String) : Tree → Except LoadError String
  | .leaf (.bool b) _ => .ok (if b then "true" else "false")
  | .leaf (.int n) _ => .ok (toString n)
  | .leaf (.float x) _ => .ok (x.render .plain)
  | .leaf (.text s) _ => .ok s
  | .leaf .unit origin => .error (.wrongType "unit value" "a string" key origin)
  | .list _ origin => .error (.wrongType "sequence" "a string" key origin)
  | .table _ origin => .error (.wrongType "map" "a string" key origin)

def readOptText (key : String) : Tree → Except LoadError (Option String)
  | .leaf .unit _ => .ok none
  | t => some <$> t.readText key

end Tree

namespace LogSettings

/-- The settings of logging by name, and how a value is put into each. The key is that of the
value. -/
def loaders : List (String × (String → LogSettings → Tree → Except LoadError LogSettings)) := [
  ("level", fun key s t => (fun level => { s with level := level }) <$> t.readText key),
  ("format", fun key s t => (fun format => { s with format := format }) <$> t.readText key),
  ("file_path", fun key s t => (fun path => { s with filePath := path }) <$> t.readOptText key)]

/-- Settings of logging from a table, or from a list in the order of the settings. What is absent
keeps its default. -/
def ofTree (key : String) : Tree → Except LoadError LogSettings
  | .table es _ =>
    es.foldlM (fun s (name, t) =>
      match loaders.lookup name with
      | some put => put (key ++ "." ++ name) s t
      | none => .ok s) {}
  | .list ts _ =>
    (loaders.zip ts).zipIdx.foldlM (fun s (((_, put), t), i) =>
      put (key ++ "[" ++ toString i ++ "]") s t) {}
  | .leaf value _ => .error (.wrongShape (Tree.describeScalar value) "struct LoggingConfig" key)

end LogSettings

namespace Settings

def loaders : List (String × (Settings → Tree → Except LoadError Settings)) := [
  ("sequence_history", fun s t =>
    (fun n => { s with sequenceHistory := n }) <$> t.readUInt64 "sequence_history"),
  ("max_streams", fun s t => (fun n => { s with maxStreams := n }) <$> t.readUInt64 "max_streams"),
  ("logging", fun s t => (fun l => { s with logging := l }) <$> LogSettings.ofTree "logging" t)]

/-- Settings from a table. What is absent keeps its default. -/
def ofEntries (entries : List (String × Tree)) : Except LoadError Settings :=
  entries.foldlM (fun s (name, t) =>
    match loaders.lookup name with
    | some put => put s t
    | none => .ok s) {}

/-- What follows the last point of a file's name. A name that begins with its only point has no
extension. -/
def fileExtension (name : String) : String :=
  let file := name.toList.reverse.takeWhile (· ≠ '/')
  let after := file.takeWhile (· ≠ '.')
  match file.drop after.length with
  | _ :: _ :: _ => String.ofList after.reverse
  | _ => ""

def readFile (name content : String) : Except LoadError (List (String × Tree)) :=
  let text := String.ofList (Text.dropMark content.toList)
  match fileExtension name with
  | "toml" =>
    match Toml.parse? text with
    | some es => .ok (Tree.ofTomlEntries (.file name) es)
    | none => .error .malformed
  | "json" =>
    match Json.parse? text with
    | some (.obj ms) => .ok (Tree.ofJsonMembers (.file name) ms)
    | _ => .error .malformed
  | _ => .error .unknownFormat

/-- The files that stand for a folder: those with its name and the extension of a known format. The
working folder and those around it are not known by name. -/
def standIns (path : String) : List String :=
  let parts := Folder.parts path
  match parts.getLast? with
  | none | some ".." => []
  | some _ => ["toml", "json"].map fun ext => Folder.join parts ++ "." ++ ext

/-- The entries of the file at a path, or of one that stands for a folder. -/
def readPath (folder : Folder String) (path : String) : Except LoadError (List (String × Tree)) :=
  let read (path : String) : Option (Except LoadError (List (String × Tree))) :=
    match folder.place path with
    | .file _ content => some (readFile (Folder.join (Folder.parts path)) content)
    | _ => none
  match folder.place path with
  | .folder => ((standIns path).findSome? read).getD (.error .unknownFormat)
  | .device _ => .error .unknownFormat
  | _ => (read path).getD (.error .noFile)

/-- The entries of a source. -/
def collect (folder : Folder String) (vars : List (String × String)) :
    Source → Except LoadError (List (String × Tree))
  | .file path => readPath folder path
  | .environment => .ok (Environment.source vars)

end Settings

/-- The path leads to something. Only folders may have a slash at the end of their paths. -/
def Folder.exists? {α : Type} (f : Folder α) (path : String) : Bool :=
  match f.place path with
  | .folder => true
  | .file .. | .device _ => !endsInSlash path
  | _ => false

/-- A library that finds its files in a working folder. -/
def ConfigLibrary.workplace : ConfigLibrary where
  Files := Folder String
  Error := LoadError
  exists? := Folder.exists?
  collect := Settings.collect
  value := Environment.value
  path := Tree.path
  set := Tree.set
  build folder vars sources := sources.foldlM (fun t source =>
    (·.foldl (fun t (key, value) => t.set key value) t) <$> Settings.collect folder vars source)
    (.table [] none)
  readUInt64 := Tree.readUInt64
  readText := Tree.readText
  readOptText := Tree.readOptText
  readLogging := LogSettings.ofTree "logging"
  readSettings t := Settings.ofEntries t.entries

end Renumber
