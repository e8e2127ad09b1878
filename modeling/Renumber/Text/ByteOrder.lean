/-! The mark with which a text may begin to show the order of its bytes. -/
namespace Renumber.Text

def dropMark : List Char → List Char
  | '\ufeff' :: cs => cs
  | cs => cs

end Renumber.Text
