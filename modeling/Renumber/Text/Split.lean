/-! Division of texts at a character. -/
namespace Renumber.Text

/-- The parts of a row of characters between the separators. There is at least one part. -/
def splitChars (separator : Char) : List Char → List (List Char)
  | [] => [[]]
  | c :: cs =>
    match splitChars separator cs with
    | [] => []
    | part :: parts => if c = separator then [] :: part :: parts else (c :: part) :: parts

def parts (separator : Char) (s : String) : List String :=
  ((splitChars separator s.toList).filter (· ≠ [])).map String.ofList

end Renumber.Text
