import Renumber.Json
import Renumber.Settings

/-! Settings as JSON, by a library that converts values and by code that is derived from the records
of settings. -/
namespace Renumber

/-- The operations of the library and of the derived code. -/
structure JsonLibrary where
  Error : Type
  /-- Convert a single value. -/
  readUInt64 : Json → Except Error UInt64
  readText : Json → Except Error String
  readOptText : Json → Except Error (Option String)
  /-- Convert a value with parts. -/
  readLogging : Json → Except Error LogSettings
  readSettings : Json → Except Error Settings
  writeSettings : Settings → Json
  render : Json → String
  /-- Settings from the text of a value, if it is one. -/
  fromText : String → Option (Except Error Settings)

end Renumber
