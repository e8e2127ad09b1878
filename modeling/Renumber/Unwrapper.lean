import Renumber.Serial

/-! Extension of 16-bit sequence numbers to a line of 64-bit numbers. -/
namespace Renumber

/-- Remembers the highest extended number seen so far. -/
structure Unwrapper where
  highest : Option (BitVec 64) := none
  deriving DecidableEq, Repr

/-- The extended number nearest to the highest one, and the unwrapper that has seen it. There is
none if it would lie before zero. The first number of all is taken as it is. -/
def Unwrapper.extend (u : Unwrapper) (n : BitVec 16) : Option (BitVec 64) × Unwrapper :=
  match u.highest with
  | none => (some (n.setWidth 64), ⟨some (n.setWidth 64)⟩)
  | some highest =>
    let newest := highest.setWidth 16
    if Serial.isOnOrAfter n newest then
      let extended := highest + (Serial.distance n newest).setWidth 64
      (some extended, ⟨some extended⟩)
    else
      let behind := (Serial.distance newest n).setWidth 64
      (if behind ≤ highest then some (highest - behind) else none, u)

end Renumber
