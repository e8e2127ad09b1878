/-! Binary floating-point numbers of 64 bits, in exact arithmetic. -/
namespace Renumber

/-- A floating-point number. A finite one is the mantissa times two to the exponent, where the
mantissa has 53 bits or the exponent is the least one, -1074. -/
inductive Binary64 where
  | finite (negative : Bool) (mantissa : Nat) (exponent : Int)
  | infinite (negative : Bool)
  | nan
  deriving DecidableEq, Repr

namespace Binary64

/-- The least mantissa of 53 bits. -/
def leastNormal : Nat := 1 <<< 52

/-- The quotient rounded to an integer. A half goes to the even neighbour. -/
def roundDiv (num den : Nat) : Nat :=
  let q := num / den
  let twice := 2 * (num % den)
  if twice < den ∨ (twice = den ∧ q % 2 = 0) then q else q + 1

private def scaledByTwo (num den : Nat) (e : Int) : Nat × Nat :=
  if e < 0 then (num, den <<< (-e).toNat) else (num <<< e.toNat, den)

def ofRatio (negative : Bool) (num den : Nat) : Binary64 :=
  if num = 0 then .finite negative 0 (-1074)
  else
    let low : Int := max (num.log2 - den.log2 - 53) (-1074)
    let (n, d) := scaledByTwo num den (-low)
    let e := if 2 * leastNormal * d ≤ n then low + 1 else low
    let (n, d) := scaledByTwo num den (-e)
    let m := roundDiv n d
    let (m, e) := if m = 2 * leastNormal then (leastNormal, e + 1) else (m, e)
    if 971 < e then .infinite negative else .finite negative m e

/-- A number times a quotient, rounded. What is not finite stays as it is. -/
def scale (x : Binary64) (num den : Nat) : Binary64 :=
  match x with
  | .finite negative m e =>
    let (n, d) := scaledByTwo (m * num) den e
    ofRatio negative n d
  | x => x

/-- The floating-point number nearest to the digits times a power of ten. Powers far outside the
range are not computed. -/
def ofDecimal (negative : Bool) (digits : Nat) (exponent : Int) : Binary64 :=
  let magnitude := (Nat.toDigits 10 digits).length + exponent
  if digits = 0 ∨ magnitude < -330 then .finite negative 0 (-1074)
  else if 310 < magnitude then .infinite negative
  else if exponent < 0 then ofRatio negative digits (Nat.pow 10 (-exponent).toNat)
  else ofRatio negative (digits * Nat.pow 10 exponent.toNat) 1

/-- The nearest unsigned integer of 64 bits, a half going away from zero. Numbers outside the range
go to its end, and what is no number goes to zero. -/
def toUInt64 : Binary64 → UInt64
  | .nan => 0
  | .infinite negative => if negative then 0 else UInt64.ofNat (UInt64.size - 1)
  | .finite negative m e =>
    let n :=
      if 0 ≤ e then m <<< e.toNat
      else (m + 1 <<< ((-e).toNat - 1)) >>> (-e).toNat
    if negative then 0 else UInt64.ofNat (min n (UInt64.size - 1))

end Binary64

end Renumber
