import QueryTree.Text.Class

/-!
# Blanks

- `isBlank`: the characters with the White_Space property.
- `isLayout`: the four blanks that may separate interval steps.
- `trim`: a text without the blanks at its two ends.
-/

namespace QueryTree.Text

/-- Code points with the White_Space property. -/
def blankRanges : List (Nat × Nat) :=
  [(9, 13), (32, 32), (133, 133), (160, 160), (5760, 5760), (8192, 8202), (8232, 8233),
   (8239, 8239), (8287, 8287), (12288, 12288)]

/-- Whether a character is white space. -/
def isBlank (c : Char) : Bool :=
  inRanges blankRanges c

/-- Space, tab, carriage return and line feed. -/
def isLayout (c : Char) : Bool :=
  c == ' ' || c == '\t' || c == '\r' || c == '\n'

/-- Drops the blanks at both ends. -/
def trim (cs : List Char) : List Char :=
  ((cs.dropWhile isBlank).reverse.dropWhile isBlank).reverse

end QueryTree.Text
