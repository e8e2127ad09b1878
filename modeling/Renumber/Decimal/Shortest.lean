import Renumber.Decimal.Binary64

/-! The shortest decimal that reads back as a given floating-point number. -/
namespace Renumber.Binary64

private def scaledByTen (c : Nat) (p : Int) : Nat × Nat :=
  if p < 0 then (c, Nat.pow 10 (-p).toNat) else (c * Nat.pow 10 p.toNat, 1)

/-- The multiple of the power of ten that is nearest to the number, if one reads back as it. The
interval is given in quarters of the last place. Its ends read back if the mantissa is even. -/
def onGrid (m : Nat) (e p : Int) : Option (Nat × Int) :=
  let quarter : Nat × Nat := if e < 2 then (1, 1 <<< (2 - e).toNat) else (1 <<< (e - 2).toNat, 1)
  let low := if m = leastNormal ∧ -1074 < e then 4 * m - 1 else 4 * m - 2
  let high := 4 * m + 2
  let (ten, divisor) := scaledByTen 1 p
  -- one step of the grid and one quarter, over a common denominator
  let step := ten * quarter.2
  let unit := quarter.1 * divisor
  let inside (c : Nat) : Bool :=
    if m % 2 = 0 then low * unit ≤ c * step ∧ c * step ≤ high * unit
    else low * unit < c * step ∧ c * step < high * unit
  let exact := 4 * m * unit
  let below := exact / step
  let above := below + 1
  match inside below, inside above with
  | false, false => none
  | true, false => some (below, p)
  | false, true => some (above, p)
  | true, true =>
    let down := exact - below * step
    let up := above * step - exact
    some (if down < up ∨ (down = up ∧ below % 2 = 0) then below else above, p)

/-- Digits and a power of ten whose product reads back as the positive number. The power is the
highest possible, so the digits are the fewest. -/
def shortest (m : Nat) (e : Int) : Nat × Int :=
  ((List.range 653).findSome? fun (i : Nat) => onGrid m e (309 - i)).getD (0, 0)

/-- How the text of a number is laid out. -/
structure Layout where
  /-- The powers of ten of the first digit for which no exponent is written. -/
  positional : Int → Bool
  /-- An integer ends in a point and a zero. -/
  keepsPoint : Bool

def Layout.plain : Layout := ⟨fun _ => true, false⟩

def Layout.pointed : Layout := ⟨fun _ => true, true⟩

/-- Always a point, and an exponent for very large and very small numbers. -/
def Layout.scientific : Layout := ⟨fun e => -5 ≤ e ∧ e < 16, true⟩

/-- The digits with a point before the given place, counted from the first digit. -/
private def withPoint (digits : List Char) (place : Int) (keepsPoint : Bool) : List Char :=
  if place ≤ 0 then '0' :: '.' :: (List.replicate (-place).toNat '0' ++ digits)
  else if digits.length ≤ place.toNat then
    digits ++ List.replicate (place.toNat - digits.length) '0' ++
      if keepsPoint then ['.', '0'] else []
  else digits.take place.toNat ++ '.' :: digits.drop place.toNat

private def withExponent (digits : List Char) (e : Int) : List Char :=
  let fraction := digits.drop 1
  digits.take 1 ++ (if fraction.isEmpty then [] else '.' :: fraction) ++
    'e' :: (if e < 0 then '-' else '+') :: (toString e.natAbs).toList

def render (layout : Layout) : Binary64 → String
  | .nan => "NaN"
  | .infinite negative => if negative then "-inf" else "inf"
  | .finite negative m e =>
    let (d, p) := if m = 0 then (0, 0) else shortest m e
    let digits := (toString d).toList
    let power := p + digits.length - 1
    let body :=
      if layout.positional power then withPoint digits (power + 1) layout.keepsPoint
      else withExponent digits power
    String.ofList (if negative then '-' :: body else body)

end Renumber.Binary64
