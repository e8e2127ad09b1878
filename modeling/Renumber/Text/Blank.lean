import Renumber.Text.Bounds

/-! Blank characters, beyond ASCII. -/
namespace Renumber.Text

/-- Where the characters change between blanks, line breaks among them, and others. -/
def blankBounds : List Nat := [
  0x9, 0xE, 0x20, 0x21, 0x85, 0x86, 0xA0, 0xA1, 0x1680, 0x1681, 0x2000, 0x200B, 0x2028, 0x202A,
  0x202F, 0x2030, 0x205F, 0x2060, 0x3000, 0x3001]

/-- The character is a blank of some script. -/
def isBlank (c : Char) : Bool := inBounds blankBounds c.toNat

def trim (cs : List Char) : List Char := ((cs.dropWhile isBlank).reverse.dropWhile isBlank).reverse

end Renumber.Text
