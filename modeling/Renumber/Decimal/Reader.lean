import Renumber.Decimal.Binary64
import Renumber.Decimal.Digits

/-! Reading of decimal numbers with a fraction and an exponent. -/
namespace Renumber.Binary64

/-- The number with the given digits before and after the point, times a power of ten. -/
def ofDigits (negative : Bool) (whole fraction : List Char) (exponent : Int) : Binary64 :=
  ofDecimal negative (Digits.value 10 (whole ++ fraction)) (exponent - fraction.length)

def fractionPart : List Char → Option (List Char) × List Char
  | '.' :: cs => (some (cs.takeWhile (Digits.isDigit 10)), cs.dropWhile (Digits.isDigit 10))
  | cs => (none, cs)

def exponentPart? : List Char → Option Int
  | [] => some 0
  | c :: cs => if c = 'e' ∨ c = 'E' then Digits.int? cs else none

/-- Reads a number: an optional sign, then digits with an optional point and exponent, or a word for
infinity or for no number. There is a digit before or after the point. -/
def parse? (s : String) : Option Binary64 :=
  let (negative, body) := Digits.sign s.toList
  let word := body.map Char.toLower
  if word = "inf".toList ∨ word = "infinity".toList then some (.infinite negative)
  else if word = "nan".toList then some .nan
  else
    let whole := body.takeWhile (Digits.isDigit 10)
    let (fraction, rest) := fractionPart (body.dropWhile (Digits.isDigit 10))
    if whole = [] ∧ fraction.getD [] = [] then none
    else (exponentPart? rest).map (ofDigits negative whole (fraction.getD []))

end Renumber.Binary64
