import Renumber.Decimal.Binary64
import Renumber.Decimal.Digits

/-! Decimal numbers that are read by scaling. The leading digits that fit into 64 bits make up an
integer, which is multiplied or divided by a power of ten. Each of these steps is rounded, so the
result may be a neighbour of the nearest floating-point number. -/
namespace Renumber.Binary64

/-- Appends digits to a number as long as it fits into 64 bits, and gives the digits that are left
over. -/
def absorb (n : Nat) : List Char → Nat × List Char
  | [] => (n, [])
  | c :: cs =>
    let longer := n * 10 + (Digits.digit? c).getD 0
    if longer < UInt64.size then absorb longer cs else (n, c :: cs)

/-- The floating-point number nearest to a power of ten, as an integer. -/
def tenPower (k : Nat) : Nat :=
  match ofRatio false (Nat.pow 10 k) 1 with
  | .finite _ m e => if e < 0 then m >>> (-e).toNat else m <<< e.toNat
  | _ => 0

/-- The greatest power of ten by which a number is scaled in one step. -/
def maxTenPower : Nat := 308

/-- A number of 64 bits times a power of ten. Numbers beyond the range are refused. Two divisions by
the greatest power make any such number zero, so more are not needed. -/
def ofScaled? (negative : Bool) (n : Nat) (e : Int) : Option Binary64 :=
  let x := ofRatio negative n 1
  if n = 0 then some x
  else if e < 0 then
    let k := (-e).toNat
    let rounds := (k - 1) / maxTenPower
    let small := (min rounds 2).repeat (·.scale 1 (tenPower maxTenPower)) x
    some (small.scale 1 (tenPower (k - rounds * maxTenPower)))
  else if maxTenPower < e then none
  else
    match x.scale (tenPower e.toNat) 1 with
    | .infinite _ => none
    | y => some y

/-- The number with the given digits before and after the point, times a power of ten. Digits before
the point that do not fit count as powers of ten, and those after it are left out. -/
def ofLeadingDigits? (negative : Bool) (whole fraction : List Char) (exponent : Int) :
    Option Binary64 :=
  let (n, left) := absorb 0 whole
  let (n, unread) := absorb n fraction
  ofScaled? negative n (left.length - (fraction.length - unread.length : Nat) + exponent)

end Renumber.Binary64
