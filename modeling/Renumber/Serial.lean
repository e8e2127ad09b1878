/-! Circular order on counters of a fixed width. -/
namespace Renumber.Serial

variable {w : Nat}

/-- Half of the key space. Only keys closer than this are ordered. -/
def halfRange (w : Nat) : BitVec w := BitVec.twoPow w (w - 1)

/-- How far `a` lies ahead of `b` on the circle. -/
def distance (a b : BitVec w) : BitVec w := a - b

/-- The key is the reference or follows it by less than half the space. -/
def isOnOrAfter (key reference : BitVec w) : Bool := distance key reference < halfRange w

/-- The key comes before the reference. At exactly half the space each one precedes the other. -/
def precedes (key reference : BitVec w) : Bool := !isOnOrAfter key reference

/-- The key lies in the closed interval from `first` to `last`. -/
def within (key first last : BitVec w) : Bool :=
  distance key first < halfRange w && distance last key < halfRange w

/-- The key lies in the open interval between `low` and `high`. -/
def strictlyBetween (key low high : BitVec w) : Bool :=
  let afterLow := distance key low
  let beforeHigh := distance high key
  afterLow != 0 && afterLow < halfRange w && beforeHigh != 0 && beforeHigh < halfRange w

theorem precedes_eq_not (key reference : BitVec w) :
    precedes key reference = !isOnOrAfter key reference := rfl

@[simp] theorem distance_self (a : BitVec w) : distance a a = 0 := by simp [distance]

end Renumber.Serial
