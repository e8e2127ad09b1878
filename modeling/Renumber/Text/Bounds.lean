/-! Sets of characters, given by the points at which they begin and end. -/
namespace Renumber.Text

/-- Membership in a set that begins at the first point, ends before the second, begins again at the
third, and so on. The points ascend. -/
def inBounds (bounds : List Nat) (n : Nat) : Bool := (bounds.takeWhile (· ≤ n)).length % 2 = 1

end Renumber.Text
