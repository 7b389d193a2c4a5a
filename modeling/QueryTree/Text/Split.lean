/-!
# Splitting texts

- `splitOn`: the parts of a text between the occurrences of a character; there is always one part
  more than there are occurrences.
- `cutAt?`: the two sides of the first occurrence.
- `pathParts`: the dot-separated parts of a path.
-/

namespace QueryTree.Text

/-- The parts between the occurrences of `sep`. -/
def splitOn (sep : Char) : List Char → List (List Char)
  | [] => [[]]
  | c :: cs =>
    if c = sep then [] :: splitOn sep cs
    else
      match splitOn sep cs with
      | [] => [[c]]
      | part :: parts => (c :: part) :: parts

/-- The text before and after the first `sep`. -/
def cutAt? (sep : Char) : List Char → Option (List Char × List Char)
  | [] => none
  | c :: cs =>
    if c = sep then some ([], cs)
    else (cutAt? sep cs).map fun (before, after) => (c :: before, after)

/-- The dot-separated parts of a path. -/
def pathParts (path : String) : List String :=
  (splitOn '.' path.toList).map String.ofList

end QueryTree.Text
