import Renumber.Decimal.Reader
import Renumber.Toml

/-! Numbers, dates and words of TOML texts. -/
namespace Renumber.Toml

/-- The digits of a number, in which single underscores may stand between digits. -/
def plainDigits? (base : Nat) (afterDigit : Bool) : List Char → Option (List Char)
  | [] => if afterDigit then some [] else none
  | c :: cs =>
    if c = '_' then if afterDigit then plainDigits? base false cs else none
    else if Digits.isDigit base c then (plainDigits? base true cs).map (c :: ·)
    else none

def wholeDigits? (cs : List Char) : Option (List Char) :=
  (plainDigits? 10 false cs).bind fun ds =>
    if ds.head? = some '0' ∧ 1 < ds.length then none else some ds

/-- A number in another base than ten. It has no sign. -/
def basedInt? : List Char → Option Nat
  | '0' :: 'x' :: cs => (plainDigits? 16 false cs).map (Digits.value 16)
  | '0' :: 'o' :: cs => (plainDigits? 8 false cs).map (Digits.value 8)
  | '0' :: 'b' :: cs => (plainDigits? 2 false cs).map (Digits.value 2)
  | _ => none

def int? (cs : List Char) : Option Int :=
  let (negative, body) := Digits.sign cs
  let n? : Option Int :=
    match basedInt? cs with
    | some n => some n
    | none => (wholeDigits? body).map fun ds =>
      let n : Int := Digits.value 10 ds
      if negative then -n else n
  n?.filter Digits.isInt64

/-- The value of an exponent. Its digits may begin with zeros. -/
def exponent? (cs : List Char) : Option Int :=
  let (negative, body) := Digits.sign cs
  (plainDigits? 10 false body).map fun ds =>
    let n : Int := Digits.value 10 ds
    if negative then -n else n

/-- A floating-point number with a fraction, an exponent or both, or one of the special words. -/
def float? (cs : List Char) : Option Binary64 :=
  let (negative, body) := Digits.sign cs
  if body = "inf".toList then some (.infinite negative)
  else if body = "nan".toList then some .nan
  else do
    let isMark (c : Char) : Bool := c = 'e' || c = 'E'
    let base := body.takeWhile (!isMark ·)
    let exponent ← match body.dropWhile (!isMark ·) with
      | [] => some 0
      | _ :: digits => exponent? digits
    let whole ← wholeDigits? (base.takeWhile (· ≠ '.'))
    let fraction ← match base.dropWhile (· ≠ '.') with
      | [] => if body.any isMark then some [] else none
      | _ :: digits => plainDigits? 10 false digits
    match Binary64.ofDigits negative whole fraction exponent with
    | .infinite _ => none
    | x => some x

def pair? (low high : Nat) (a b : Char) : Option Nat :=
  if Digits.isDigit 10 a && Digits.isDigit 10 b then
    let n := Digits.value 10 [a, b]
    if low ≤ n ∧ n ≤ high then some n else none
  else none

def daysIn (year month : Nat) : Nat :=
  if month = 2 then
    if year % 4 = 0 ∧ (year % 100 ≠ 0 ∨ year % 400 = 0) then 29 else 28
  else if month = 4 ∨ month = 6 ∨ month = 9 ∨ month = 11 then 30
  else 31

private def two (n : Nat) : String := (if n < 10 then "0" else "") ++ toString n

def readDate : List Char → Option (String × List Char)
  | y1 :: y2 :: y3 :: y4 :: '-' :: m1 :: m2 :: '-' :: d1 :: d2 :: cs => do
    let century ← pair? 0 99 y1 y2
    let year ← pair? 0 99 y3 y4
    let month ← pair? 1 12 m1 m2
    let day ← pair? 1 (daysIn (century * 100 + year) month) d1 d2
    some (two century ++ two year ++ "-" ++ two month ++ "-" ++ two day, cs)
  | _ => none

/-- The fraction of a second to nine places, without needless zeros. One place is always kept. -/
private def fractionText (ds : List Char) : String :=
  let kept := ((ds.take 9).reverse.dropWhile (· = '0')).reverse
  String.ofList ('.' :: if kept = [] then ['0'] else kept)

/-- Reads a time of day, and gives its text. Seconds may be left out, and are left out then in the
text. -/
def readTime : List Char → Option (String × List Char)
  | h1 :: h2 :: ':' :: m1 :: m2 :: cs => do
    let hour ← pair? 0 23 h1 h2
    let minute ← pair? 0 59 m1 m2
    let start := two hour ++ ":" ++ two minute
    match cs with
    | ':' :: s1 :: s2 :: cs =>
      let second ← pair? 0 60 s1 s2
      match cs with
      | '.' :: cs =>
        let digits := cs.takeWhile (Digits.isDigit 10)
        if digits = [] then none
        else some (start ++ ":" ++ two second ++ fractionText digits, cs.drop digits.length)
      | cs => some (start ++ ":" ++ two second, cs)
    | cs => some (start, cs)
  | _ => none

/-- Reads the distance of a time from the common one, if it is given. A distance of zero has a plus
sign. -/
def readOffset : List Char → Option String
  | [] => some ""
  | ['Z'] | ['z'] => some "Z"
  | [s, h1, h2, ':', m1, m2] => do
    let hour ← pair? 0 23 h1 h2
    let minute ← pair? 0 59 m1 m2
    let mark := if s = '-' ∧ 0 < hour + minute then "-" else "+"
    if s = '+' ∨ s = '-' then some (mark ++ two hour ++ ":" ++ two minute) else none
  | _ => none

def moment? (cs : List Char) : Option String :=
  match readDate cs with
  | none => (readTime cs).bind fun (time, rest) => if rest = [] then some time else none
  | some (date, []) => some date
  | some (date, mark :: cs) =>
    if mark = 'T' ∨ mark = 't' ∨ mark = ' ' then do
      let (time, rest) ← readTime cs
      let offset ← readOffset rest
      some (date ++ "T" ++ time ++ offset)
    else none

def scalar? (cs : List Char) : Option Toml :=
  if cs = "true".toList then some (.bool true)
  else if cs = "false".toList then some (.bool false)
  else
    match int? cs with
    | some n => some (.int n)
    | none =>
      match float? cs with
      | some x => some (.float x)
      | none => (moment? cs).map .moment

end Renumber.Toml
