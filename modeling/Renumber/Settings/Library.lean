import Renumber.Settings
import Renumber.Settings.Tree

/-! Loading of settings from a file and from the environment, by a library that collects, merges and
converts values. -/
namespace Renumber

/-- Where values are collected. -/
inductive Source where
  | file (path : String)
  /-- Variables that begin with `RELAY_`. Two underscores stand between the names of a path, and
  their texts are parsed. -/
  | environment
  deriving DecidableEq, Repr

/-- The operations of the library and of the file system under it. -/
structure ConfigLibrary where
  /-- The states of the files. -/
  Files : Type
  Error : Type
  /-- Something is at the path. -/
  exists? : Files → String → Bool
  /-- The values of a source with their keys. Variables are given with their names. -/
  collect : Files → List (String × String) → Source → Except Error (List (String × Tree))
  /-- The value that the text of a variable is read as. -/
  value : String → Scalar
  /-- The steps to which a key leads. -/
  path : String → List Step
  /-- The tree with a value set under a key. -/
  set : Tree → String → Tree → Tree
  /-- The tree of all values of the sources. -/
  build : Files → List (String × String) → List Source → Except Error Tree
  /-- Converts the value at a path, which errors name. -/
  readUInt64 : String → Tree → Except Error UInt64
  readText : String → Tree → Except Error String
  readOptText : String → Tree → Except Error (Option String)
  readLogging : Tree → Except Error LogSettings
  readSettings : Tree → Except Error Settings

namespace Settings

variable (lib : ConfigLibrary)

/-- The sources of settings, the one with precedence last. A path that leads nowhere counts as
none. -/
def sources (files : lib.Files) : Option String → List Source
  | some path => if lib.exists? files path then [.file path, .environment] else [.environment]
  | none => [.environment]

/-- Loads settings. The environment has precedence over the file, and the file over the defaults. -/
def load (files : lib.Files) (path : Option String) (vars : List (String × String)) :
    Except lib.Error Settings := do
  let t ← lib.build files vars (sources lib files path)
  lib.readSettings t

end Settings

end Renumber
