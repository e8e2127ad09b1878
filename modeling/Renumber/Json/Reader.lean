import Renumber.Decimal.Reader
import Renumber.Decimal.Scaled
import Renumber.Json

/-! Reading of JSON texts. -/
namespace Renumber.Json

def isBlank (c : Char) : Bool := c = ' ' || c = '\t' || c = '\n' || c = '\r'

def skipBlanks (cs : List Char) : List Char := cs.dropWhile isBlank

def unescape? : Char → Option Char
  | '"' => some '"'
  | '\\' => some '\\'
  | '/' => some '/'
  | 'b' => some '\x08'
  | 'f' => some '\x0c'
  | 'n' => some '\n'
  | 'r' => some '\r'
  | 't' => some '\t'
  | _ => none

def unit? (ds : List Char) : Option Nat :=
  if ds.all (Digits.isDigit 16) then some (Digits.value 16 ds) else none

/-- Reads a string after its opening mark. Numbered escapes are units of 16 bits. Two of them that
form a pair are one character, and half a pair is refused. -/
def readString (acc : List Char) : List Char → Option (String × List Char)
  | '"' :: cs => some (String.ofList acc.reverse, cs)
  | '\\' :: 'u' :: a :: b :: c :: d :: cs =>
    match unit? [a, b, c, d] with
    | none => none
    | some high =>
      if high < 0xD800 ∨ 0xE000 ≤ high then readString (Char.ofNat high :: acc) cs
      else if 0xDC00 ≤ high then none
      else
        match cs with
        | '\\' :: 'u' :: e :: f :: g :: h :: rest =>
          match unit? [e, f, g, h] with
          | none => none
          | some low =>
            if low < 0xDC00 ∨ 0xE000 ≤ low then none
            else
              let n := 0x10000 + (high - 0xD800) * 0x400 + (low - 0xDC00)
              readString (Char.ofNat n :: acc) rest
        | _ => none
  | '\\' :: c :: cs => (unescape? c).bind fun c => readString (c :: acc) cs
  | c :: cs => if c.toNat < 0x20 then none else readString (c :: acc) cs
  | [] => none

/-- An integer that fits into 64 bits stays exact. Others, and minus zero, become floating-point
numbers. Those beyond the range are refused. -/
def ofNumber? (negative : Bool) (whole : List Char) (fraction : Option (List Char))
    (exponent : Option Int) : Option Json :=
  let n := Digits.value 10 whole
  let isWhole := fraction.isNone && exponent.isNone
  if isWhole && !negative && n < UInt64.size then some (.int n)
  else if isWhole && negative && 0 < n && Digits.isInt64 (-n) then some (.int (-n))
  else
    (Binary64.ofLeadingDigits? negative whole (fraction.getD []) (exponent.getD 0)).map .float

def readExponent : List Char → Option (Option Int × List Char)
  | [] => some (none, [])
  | c :: cs =>
    if c = 'e' ∨ c = 'E' then
      let (negative, rest) := Digits.sign cs
      let digits := rest.takeWhile (Digits.isDigit 10)
      let n : Int := Digits.value 10 digits
      if digits = [] then none
      else some (some (if negative then -n else n), rest.dropWhile (Digits.isDigit 10))
    else some (none, c :: cs)

def readNumber (cs : List Char) : Option (Json × List Char) := do
  let (negative, body) := match cs with
    | '-' :: rest => (true, rest)
    | _ => (false, cs)
  let whole := body.takeWhile (Digits.isDigit 10)
  if whole = [] ∨ (whole.head? = some '0' ∧ 1 < whole.length) then none
  else
    let (fraction, rest) := Binary64.fractionPart (body.dropWhile (Digits.isDigit 10))
    if fraction = some [] then none
    else
      let (exponent, rest) ← readExponent rest
      let value ← ofNumber? negative whole fraction exponent
      some (value, rest)

def readWord (word : String) (value : Json) (cs : List Char) : Option (Json × List Char) :=
  if word.toList.isPrefixOf cs then some (value, cs.drop word.length) else none

mutual

/-- Reads a value. Each of its tokens takes one unit of fuel. -/
def readValue (fuel depth : Nat) (cs : List Char) : Option (Json × List Char) :=
  match fuel with
  | 0 => none
  | fuel + 1 =>
    match skipBlanks cs with
    | '"' :: rest => (readString [] rest).map fun (s, rest) => (.str s, rest)
    | '[' :: rest =>
      if depth ≤ 1 then none
      else
        match skipBlanks rest with
        | ']' :: rest => some (.arr [], rest)
        | rest => readItems fuel (depth - 1) [] rest
    | '\x7b' :: rest =>
      if depth ≤ 1 then none
      else
        match skipBlanks rest with
        | '\x7d' :: rest => some (.obj [], rest)
        | rest => readMembers fuel (depth - 1) [] rest
    | 'n' :: rest => readWord "null" .null ('n' :: rest)
    | 't' :: rest => readWord "true" (.bool true) ('t' :: rest)
    | 'f' :: rest => readWord "false" (.bool false) ('f' :: rest)
    | rest => readNumber rest

def readItems (fuel depth : Nat) (acc : List Json) (cs : List Char) : Option (Json × List Char) :=
  match fuel with
  | 0 => none
  | fuel + 1 =>
    match readValue fuel depth cs with
    | none => none
    | some (item, rest) =>
      match skipBlanks rest with
      | ',' :: rest => readItems fuel depth (item :: acc) rest
      | ']' :: rest => some (.arr (item :: acc).reverse, rest)
      | _ => none

/-- Reads the members of an object up to its end. Of equal keys the last one stays. -/
def readMembers (fuel depth : Nat) (acc : List (String × Json)) (cs : List Char) :
    Option (Json × List Char) :=
  match fuel with
  | 0 => none
  | fuel + 1 =>
    match skipBlanks cs with
    | '"' :: rest =>
      match readString [] rest with
      | none => none
      | some (key, rest) =>
        match skipBlanks rest with
        | ':' :: rest =>
          match readValue fuel depth rest with
          | none => none
          | some (value, rest) =>
            match skipBlanks rest with
            | ',' :: rest => readMembers fuel depth (insert key value acc) rest
            | '\x7d' :: rest => some (.obj (insert key value acc), rest)
            | _ => none
        | _ => none
    | _ => none

end

/-- The deepest nesting that is read. -/
def maxDepth : Nat := 128

def parse? (text : String) : Option Json :=
  let cs := text.toList
  match readValue (cs.length + 1) maxDepth cs with
  | some (value, rest) => if skipBlanks rest = [] then some value else none
  | none => none

end Renumber.Json
