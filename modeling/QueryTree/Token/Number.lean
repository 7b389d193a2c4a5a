import QueryTree.Text.Class

/-!
# Texts that are numbers

Plain decimal notation: an optional sign, digits with at most one point among them, and an
optional power of ten. Words such as `nan` and `inf` are not numbers.
-/

namespace QueryTree.Token

open Text

/-- Drops one sign. -/
def dropSign : List Char → List Char
  | '-' :: cs => cs
  | '+' :: cs => cs
  | cs => cs

/-- Nothing, or `e` or `E` with an optional sign and at least one digit. -/
def isExponent : List Char → Bool
  | [] => true
  | c :: cs =>
    let digits := dropSign cs
    (c == 'e' || c == 'E') && !digits.isEmpty && digits.all isDigit

/-- Whether a text is a number. -/
def isNumeric (cs : List Char) : Bool :=
  let cs := dropSign cs
  let whole := cs.takeWhile isDigit
  match cs.dropWhile isDigit with
  | '.' :: rest =>
    let fraction := rest.takeWhile isDigit
    !(whole.isEmpty && fraction.isEmpty) && isExponent (rest.dropWhile isDigit)
  | rest => !whole.isEmpty && isExponent rest

end QueryTree.Token
