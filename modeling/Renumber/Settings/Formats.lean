import Renumber.Json
import Renumber.Settings.Tree
import Renumber.Toml

/-! Trees of the values in files. -/
namespace Renumber.Tree

mutual

def ofJson (origin : Origin) : Json → Tree
  | .null => .leaf .unit origin
  | .bool b => .leaf (.bool b) origin
  | .int n => .leaf (.int n) origin
  | .float x => .leaf (.float x) origin
  | .str s => .leaf (.text s) origin
  | .arr vs => .list (ofJsonItems origin vs) origin
  | .obj ms => .table (ofJsonMembers origin ms) origin

def ofJsonItems (origin : Origin) : List Json → List Tree
  | [] => []
  | v :: rest => ofJson origin v :: ofJsonItems origin rest

def ofJsonMembers (origin : Origin) : List (String × Json) → List (String × Tree)
  | [] => []
  | m :: rest => ofJsonMember origin m :: ofJsonMembers origin rest

def ofJsonMember (origin : Origin) : String × Json → String × Tree
  | (key, v) => (key, ofJson origin v)

end

mutual

def ofToml (origin : Origin) : Toml → Tree
  | .bool b => .leaf (.bool b) origin
  | .int n => .leaf (.int n) origin
  | .float x => .leaf (.float x) origin
  | .text s => .leaf (.text s) origin
  | .moment s => .leaf (.text s) origin
  | .array vs => .list (ofTomlItems origin vs) origin
  | .table es => .table (ofTomlEntries origin es) origin

def ofTomlItems (origin : Origin) : List Toml → List Tree
  | [] => []
  | v :: rest => ofToml origin v :: ofTomlItems origin rest

def ofTomlEntries (origin : Origin) : List (String × Toml) → List (String × Tree)
  | [] => []
  | e :: rest => ofTomlEntry origin e :: ofTomlEntries origin rest

def ofTomlEntry (origin : Origin) : String × Toml → String × Tree
  | (key, v) => (key, ofToml origin v)

end

end Renumber.Tree
