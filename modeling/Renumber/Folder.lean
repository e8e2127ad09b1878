import Renumber.Entries
import Renumber.Text.Split

/-! A working folder with files in it. -/
namespace Renumber

/-- Files by the parts of their paths below the folder. -/
structure Folder (α : Type) where
  files : List (List String × α) := []
  deriving DecidableEq, Repr

/-- What a path leads to. -/
inductive Place (α : Type) where
  | file (parts : List String) (content : α)
  | folder
  /-- The folder exists and holds nothing of the name. -/
  | vacant (parts : List String)
  /-- A part of the path is a file and not a folder. -/
  | blocked
  | missing
  /-- A name that is not known, in a folder outside of the working folder. -/
  | outside (parts : List String)
  /-- Takes what is written and holds nothing that could be read. -/
  | device (parts : List String)
  /-- The path or one of its parts is longer than any name may be. -/
  | tooLong
  /-- The path holds the character that ends all paths. -/
  | unnameable
  deriving DecidableEq, Repr

namespace Folder

variable {α : Type}

/-- The steps that a path takes, divided by slashes. Empty ones are left out. -/
def steps (path : String) : List String := Text.parts '/' path

/-- The parts of a path that lead elsewhere. Single points do not. -/
def parts (path : String) : List String := (steps path).filter (· ≠ ".")

def join (ps : List String) : String := "/".intercalate ps

/-- A folder of files with paths below it. -/
def ofPaths (files : List (String × α)) : Folder α :=
  ⟨files.map fun (path, content) => (parts path, content)⟩

def content? (f : Folder α) (ps : List String) : Option α := f.files.lookup ps

/-- The parts lead to the folder itself or to one that holds a file. -/
def isFolder (f : Folder α) (ps : List String) : Bool :=
  ps = [] || f.files.any fun file => ps.length < file.1.length && ps.isPrefixOf file.1

/-- Where a path has led to so far. -/
inductive Spot where
  /-- A folder below the working folder, or that folder itself. -/
  | inside (parts : List String)
  /-- A folder around the working folder, so many steps above the next one around it. -/
  | around (height : Nat)
  /-- A folder that every system has. -/
  | system (parts : List String)
  deriving DecidableEq, Repr

/-- The folder around the one at a spot. The root is around itself. -/
def Spot.up : Spot → Spot
  | .inside [] => .around 0
  | .inside parts => .inside parts.dropLast
  | .around height => .around (height + 1)
  | .system parts => .system parts.dropLast

def systemFolders : List (List String) := [["dev"], ["etc"], ["tmp"], ["usr"], ["var"]]

def systemDevices : List (List String) := [["dev", "null"]]

/-- The greatest number of bytes in one part of a path. -/
def maxPart : Nat := 255

/-- The greatest number of bytes in a path. -/
def maxPath : Nat := 4095

/-- Follows the steps of a path from a spot. Two points lead to the folder around it. -/
def follow (f : Folder α) (spot : Spot) : List String → Place α
  | [] => .folder
  | part :: rest =>
    if part = "." then f.follow spot rest
    else if part = ".." then f.follow spot.up rest
    else if maxPart < part.utf8ByteSize then .tooLong
    else
      match spot with
      | .inside base =>
        let here := base ++ [part]
        if f.isFolder here then f.follow (.inside here) rest
        else
          match f.content? here with
          | some content => if rest = [] then .file here content else .blocked
          | none => if rest = [] then .vacant here else .missing
      | .around height =>
        if rest = [] then .outside (List.replicate (height + 1) ".." ++ [part]) else .missing
      | .system base =>
        let here := base ++ [part]
        if here ∈ systemFolders then f.follow (.system here) rest
        else if here ∈ systemDevices then if rest = [] then .device ("" :: here) else .blocked
        else if rest = [] then .outside ("" :: here)
        else .missing

def endsInSlash (path : String) : Bool := ['/'].isSuffixOf path.toList

def place (f : Folder α) (path : String) : Place α :=
  if path.contains '\x00' then .unnameable
  else if maxPath < path.utf8ByteSize then .tooLong
  else if path = "" then .missing
  else if path.toList.head? = some '/' then f.follow (.system []) (steps path)
  else f.follow (.inside []) (steps path)

def put (f : Folder α) (ps : List String) (content : α) : Folder α :=
  ⟨Entries.set ps content f.files⟩

end Folder

end Renumber
