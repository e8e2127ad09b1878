/-! Digits of written numbers. -/
namespace Renumber.Digits

/-- The value of a digit. Letters stand for the digits from ten on. -/
def digit? (c : Char) : Option Nat :=
  if '0' ≤ c ∧ c ≤ '9' then some (c.toNat - 48)
  else if 'a' ≤ c ∧ c ≤ 'z' then some (c.toNat - 87)
  else if 'A' ≤ c ∧ c ≤ 'Z' then some (c.toNat - 55)
  else none

def isDigit (base : Nat) (c : Char) : Bool := (digit? c).any (· < base)

def value (base : Nat) (cs : List Char) : Nat :=
  cs.foldl (fun n c => n * base + (digit? c).getD 0) 0

def nat? (cs : List Char) : Option Nat :=
  if cs ≠ [] ∧ cs.all (isDigit 10) then some (value 10 cs) else none

def sign : List Char → Bool × List Char
  | '-' :: cs => (true, cs)
  | '+' :: cs => (false, cs)
  | cs => (false, cs)

def int? (cs : List Char) : Option Int :=
  let (negative, rest) := sign cs
  (nat? rest).map fun n => if negative then -n else n

/-- The integer fits into 64 bits with sign. -/
def isInt64 (n : Int) : Bool := Int64.minValue.toInt ≤ n ∧ n ≤ Int64.maxValue.toInt

end Renumber.Digits
