import Renumber.Folder
import Renumber.Logging.Filter
import Renumber.Logging.Host

/-! A host with the files of a working folder. -/
namespace Renumber

/-- Why a log file is not opened. -/
inductive OpenError where
  | notFound
  | notFolder
  | isFolder
  | nameTooLong
  | nameCutShort
  deriving DecidableEq, Repr

def OpenError.message : OpenError → String
  | .notFound => "No such file or directory (os error 2)"
  | .notFolder => "Not a directory (os error 20)"
  | .isFolder => "Is a directory (os error 21)"
  | .nameTooLong => "File name too long (os error 36)"
  | .nameCutShort => "file name contained an unexpected NUL byte"

/-- Where records go. -/
inductive LogTarget where
  | output
  /-- A file below the working folder. -/
  | inside (parts : List String)
  /-- A file or device elsewhere. -/
  | beyond (parts : List String)
  deriving DecidableEq, Repr

/-- The lines in the files of a working folder and elsewhere, and those on standard output. -/
structure Workplace where
  folder : Folder (List LogLine) := {}
  beyond : Folder (List LogLine) := {}
  output : List LogLine := []
  deriving DecidableEq, Repr

namespace Workplace

/-- A working folder of texts. Each line that is not empty counts. -/
def ofFiles (files : List (String × String)) : Workplace :=
  { folder := .ofPaths (files.map fun (path, text) =>
      (path, (Text.parts '\n' text).map LogLine.text)) }

def written (w : Workplace) : LogTarget → List LogLine
  | .output => w.output
  | .inside ps => (w.folder.content? ps).getD []
  | .beyond ps => (w.beyond.content? ps).getD []

def append (w : Workplace) (target : LogTarget) (lines : List LogLine) : Workplace :=
  match target with
  | .output => { w with output := w.output ++ lines }
  | .inside ps => { w with folder := w.folder.put ps (w.written (.inside ps) ++ lines) }
  | .beyond ps => { w with beyond := w.beyond.put ps (w.written (.beyond ps) ++ lines) }

/-- Opens a file to append to it. Appending nothing makes a file that is not there. -/
def openFile (w : Workplace) (path : String) : Except OpenError (Workplace × LogTarget) :=
  let openAt (target : LogTarget) : Except OpenError (Workplace × LogTarget) :=
    if Folder.endsInSlash path then .error .isFolder else .ok (w.append target [], target)
  match w.folder.place path with
  | .folder => .error .isFolder
  | .missing => .error .notFound
  | .blocked => .error .notFolder
  | .tooLong => .error .nameTooLong
  | .unnameable => .error .nameCutShort
  | .file ps _ | .vacant ps => openAt (.inside ps)
  | .outside ps | .device ps => openAt (.beyond ps)

end Workplace

/-- A process in a working folder, with filters of rules. -/
def LogHost.workplace : LogHost where
  Files := Workplace
  File := LogTarget
  Filter := Renumber.Filter
  Dispatch := Option (LogSink Renumber.Filter LogTarget)
  output := .output
  written := Workplace.written
  openFile w path := (w.openFile path).mapError OpenError.message
  append := Workplace.append
  filter? := Filter.parse?
  filterOf := Filter.ofText
  allows := Filter.allows
  idle := none
  sink? := id
  install
    | none, sink => .ok (some sink)
    | some _, _ => .error "a global default trace dispatcher has already been set"

end Renumber
