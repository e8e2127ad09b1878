import Renumber.Text.ByteOrder
import Renumber.Toml.Scalar
import Renumber.Toml.Text

/-! Reading of TOML texts. -/
namespace Renumber.Toml

def isBare (c : Char) : Bool := c.isAlphanum || c = '_' || c = '-'

def readKeyPart (cs : List Char) : Option (String × List Char) :=
  match cs with
  | '"' :: rest => readBasic [] rest
  | '\'' :: rest => readLiteral rest
  | _ =>
    let name := cs.takeWhile isBare
    if name = [] then none else some (String.ofList name, cs.dropWhile isBare)

/-- The deepest nesting that is read, and the greatest number of parts in a key. -/
def maxDepth : Nat := 80

/-- Reads a key of at most so many parts, which are divided by points. -/
def readParts : Nat → List Char → Option (List String × List Char)
  | 0, _ => none
  | count + 1, cs => do
    let (part, rest) ← readKeyPart (skipBlanks cs)
    match skipBlanks rest with
    | '.' :: rest =>
      let (path, rest) ← readParts count rest
      some (part :: path, rest)
    | rest => some ([part], rest)

/-- Reads a key. -/
def readKey (cs : List Char) : Option (List String × List Char) := readParts maxDepth cs

def isScalarChar (c : Char) : Bool :=
  c.isAlphanum || c = '_' || c = '-' || c = '+' || c = '.' || c = ':'

/-- Reads a number, a date or a word. A blank may divide a date from the time that follows it. -/
def readScalar (cs : List Char) : Option (Toml × List Char) :=
  let word := cs.takeWhile isScalarChar
  let rest := cs.dropWhile isScalarChar
  let (word, rest) :=
    match readDate word, rest with
    | some (_, []), ' ' :: after =>
      match after with
      | d :: _ =>
        if d.isDigit then
          (word ++ ' ' :: after.takeWhile isScalarChar, after.dropWhile isScalarChar)
        else (word, rest)
      | [] => (word, rest)
    | _, _ => (word, rest)
  (scalar? word).map fun value => (value, rest)

mutual

/-- Reads a value, in which others are nested so deep at most. Each part of it takes one unit of
fuel. -/
def readValue (fuel depth : Nat) (cs : List Char) : Option (Toml × List Char) :=
  match fuel with
  | 0 => none
  | fuel + 1 =>
    match cs with
    | '"' :: _ | '\'' :: _ => (readString cs).map fun (s, rest) => (.text s, rest)
    | '[' :: rest => if depth = 0 then none else readItems fuel (depth - 1) [] rest
    | '\x7b' :: rest => if depth = 0 then none else readInline fuel (depth - 1) [] rest
    | _ => readScalar cs

/-- Reads the items of an array up to its end. The last one may have a comma after it. -/
def readItems (fuel depth : Nat) (acc : List Toml) (cs : List Char) :
    Option (Toml × List Char) :=
  match fuel with
  | 0 => none
  | fuel + 1 =>
    match skipTrivia false cs with
    | some (']' :: rest) => some (.array acc.reverse, rest)
    | some start =>
      match readValue fuel depth start with
      | none => none
      | some (value, rest) =>
        match skipTrivia false rest with
        | some (',' :: rest) => readItems fuel depth (value :: acc) rest
        | some (']' :: rest) => some (.array (value :: acc).reverse, rest)
        | _ => none
    | none => none

def readInline (fuel depth : Nat) (acc : List (String × Node)) (cs : List Char) :
    Option (Toml × List Char) :=
  match fuel with
  | 0 => none
  | fuel + 1 =>
    match skipTrivia false cs with
    | some ('\x7d' :: rest) => some (.table (Node.toEntries acc), rest)
    | some start =>
      match readEntry fuel depth start with
      | none => none
      | some (path, value, rest) =>
        match Node.addKey value path acc, skipTrivia false rest with
        | some acc, some (',' :: rest) => readInline fuel depth acc rest
        | some acc, some ('\x7d' :: rest) => some (.table (Node.toEntries acc), rest)
        | _, _ => none
    | none => none

def readEntry (fuel depth : Nat) (cs : List Char) : Option (List String × Toml × List Char) :=
  match fuel with
  | 0 => none
  | fuel + 1 =>
    match readKey cs with
    | some (path, '=' :: rest) =>
      (readValue fuel depth (skipBlanks rest)).map fun (value, rest) => (path, value, rest)
    | _ => none

end

def splitLast? : List String → Option (List String × String)
  | [] => none
  | [key] => some ([], key)
  | key :: path => (splitLast? path).map fun (way, last) => (key :: way, last)

/-- Reads a document line by line. The path names the table to which entries are added. -/
def readLines (fuel : Nat) (header : List String) (root : List (String × Node)) (cs : List Char) :
    Option (List (String × Node)) :=
  match fuel with
  | 0 => none
  | fuel + 1 =>
    match skipTrivia false cs with
    | none => none
    | some [] => some root
    | some ('[' :: '[' :: rest) => do
      let (path, rest) ← readKey rest
      match rest with
      | ']' :: ']' :: rest =>
        let rest ← endLine rest
        let (way, key) ← splitLast? path
        let root ← Node.update (Node.openItem key) way root
        readLines fuel path root rest
      | _ => none
    | some ('[' :: rest) => do
      let (path, rest) ← readKey rest
      match rest with
      | ']' :: rest =>
        let rest ← endLine rest
        let (way, key) ← splitLast? path
        let root ← Node.update (Node.openTable key) way root
        readLines fuel path root rest
      | _ => none
    | some start => do
      let (path, value, rest) ← readEntry fuel maxDepth start
      let rest ← endLine rest
      let root ← Node.update (Node.addKey value path) header root
      readLines fuel header root rest

/-- Reads a document, which may begin with a mark of its byte order. Its value is a table. -/
def parse? (text : String) : Option (List (String × Toml)) :=
  let cs := Text.dropMark text.toList
  (readLines (2 * cs.length + 2) [] [] cs).map Node.toEntries

end Renumber.Toml
