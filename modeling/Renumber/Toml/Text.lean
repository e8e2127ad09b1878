import Renumber.Decimal.Digits

/-! Strings and blanks of TOML texts. -/
namespace Renumber.Toml

def isBlank (c : Char) : Bool := c = ' ' || c = '\t'

/-- A control that no string and no comment may hold. -/
def isControl (c : Char) : Bool := (c.toNat < 0x20 && c ≠ '\t') || c.toNat = 0x7F

def skipBlanks (cs : List Char) : List Char := cs.dropWhile isBlank

def lineBreak? : List Char → Option (List Char)
  | '\n' :: cs => some cs
  | '\r' :: '\n' :: cs => some cs
  | _ => none

def skipTrivia (inComment : Bool) : List Char → Option (List Char)
  | [] => some []
  | '\n' :: cs => skipTrivia false cs
  | '\r' :: '\n' :: cs => skipTrivia false cs
  | c :: cs =>
    if inComment then if isControl c then none else skipTrivia true cs
    else if isBlank c then skipTrivia false cs
    else if c = '#' then skipTrivia true cs
    else some (c :: cs)

/-- The text after the end of a line. A comment may stand before it. -/
def endLine (cs : List Char) : Option (List Char) :=
  match skipBlanks cs with
  | [] => some []
  | '#' :: comment =>
    let rest := comment.dropWhile fun c => !isControl c
    if rest = [] then some [] else lineBreak? rest
  | rest => lineBreak? rest

/-- The character with the number that the digits give. Halves of a pair are refused. -/
def charOfHex? (ds : List Char) : Option Char :=
  let n := Digits.value 16 ds
  if ds.all (Digits.isDigit 16) ∧ n.isValidChar then some (Char.ofNat n) else none

def unescape? : Char → Option Char
  | 'b' => some '\x08'
  | 't' => some '\t'
  | 'n' => some '\n'
  | 'f' => some '\x0c'
  | 'r' => some '\r'
  | 'e' => some '\x1b'
  | '"' => some '"'
  | '\\' => some '\\'
  | _ => none

def readBasic (acc : List Char) : List Char → Option (String × List Char)
  | [] => none
  | '"' :: cs => some (String.ofList acc.reverse, cs)
  | '\\' :: 'x' :: a :: b :: cs => (charOfHex? [a, b]).bind fun c => readBasic (c :: acc) cs
  | '\\' :: 'u' :: a :: b :: c :: d :: cs =>
    (charOfHex? [a, b, c, d]).bind fun c => readBasic (c :: acc) cs
  | '\\' :: 'U' :: a :: b :: c :: d :: e :: f :: g :: h :: cs =>
    (charOfHex? [a, b, c, d, e, f, g, h]).bind fun c => readBasic (c :: acc) cs
  | '\\' :: c :: cs => (unescape? c).bind fun c => readBasic (c :: acc) cs
  | c :: cs => if isControl c then none else readBasic (c :: acc) cs

/-- Reads a string of one line without escapes, after its opening apostrophe. -/
def readLiteral (cs : List Char) : Option (String × List Char) :=
  let body := cs.takeWhile (· ≠ '\'')
  match cs.dropWhile (· ≠ '\'') with
  | _ :: rest => if body.any isControl then none else some (String.ofList body, rest)
  | [] => none

def hidesLineBreak (cs : List Char) : Bool := (lineBreak? (skipBlanks cs)).isSome

/-- Reads a string of many lines, whose breaks are kept as written. Up to two quotation marks may
stand before the closing three.
After a backslash at the end of a line, blanks and line breaks are skipped. -/
def readLongBasic (trimming : Bool) (acc : List Char) : List Char → Option (String × List Char)
  | [] => none
  | '\n' :: cs => readLongBasic trimming (if trimming then acc else '\n' :: acc) cs
  | '\r' :: '\n' :: cs =>
    readLongBasic trimming (if trimming then acc else '\n' :: '\r' :: acc) cs
  | '"' :: '"' :: '"' :: '"' :: '"' :: cs => some (String.ofList ('"' :: '"' :: acc).reverse, cs)
  | '"' :: '"' :: '"' :: '"' :: cs => some (String.ofList ('"' :: acc).reverse, cs)
  | '"' :: '"' :: '"' :: cs => some (String.ofList acc.reverse, cs)
  | '\\' :: 'x' :: a :: b :: cs =>
    (charOfHex? [a, b]).bind fun c => readLongBasic false (c :: acc) cs
  | '\\' :: 'u' :: a :: b :: c :: d :: cs =>
    (charOfHex? [a, b, c, d]).bind fun c => readLongBasic false (c :: acc) cs
  | '\\' :: 'U' :: a :: b :: c :: d :: e :: f :: g :: h :: cs =>
    (charOfHex? [a, b, c, d, e, f, g, h]).bind fun c => readLongBasic false (c :: acc) cs
  | '\\' :: c :: cs =>
    if hidesLineBreak (c :: cs) then readLongBasic true acc cs
    else (unescape? c).bind fun c => readLongBasic false (c :: acc) cs
  | c :: cs =>
    if trimming && isBlank c then readLongBasic true acc cs
    else if isControl c then none
    else readLongBasic false (c :: acc) cs

/-- Reads a string of many lines without escapes. Their breaks are kept as written. Up to two
apostrophes may stand before the closing three. -/
def readLongLiteral (acc : List Char) : List Char → Option (String × List Char)
  | [] => none
  | '\r' :: '\n' :: cs => readLongLiteral ('\n' :: '\r' :: acc) cs
  | '\'' :: '\'' :: '\'' :: '\'' :: '\'' :: cs =>
    some (String.ofList ('\'' :: '\'' :: acc).reverse, cs)
  | '\'' :: '\'' :: '\'' :: '\'' :: cs => some (String.ofList ('\'' :: acc).reverse, cs)
  | '\'' :: '\'' :: '\'' :: cs => some (String.ofList acc.reverse, cs)
  | c :: cs => if isControl c && c ≠ '\n' then none else readLongLiteral (c :: acc) cs

def dropFirstBreak (cs : List Char) : List Char := (lineBreak? cs).getD cs

def readString : List Char → Option (String × List Char)
  | '"' :: '"' :: '"' :: cs => readLongBasic false [] (dropFirstBreak cs)
  | '"' :: cs => readBasic [] cs
  | '\'' :: '\'' :: '\'' :: cs => readLongLiteral [] (dropFirstBreak cs)
  | '\'' :: cs => readLiteral cs
  | _ => none

end Renumber.Toml
