import QueryTree.Text.Escaped

/-!
# Texts shown in messages

A text inside a message stands between double quotes, with every character on view: quotes and
backslashes are escaped, common control characters have a letter, and what has no mark of its own
is shown by its code point.
-/

namespace QueryTree.Text

/-- The code point of a character, as an escape. -/
def numberEscape (c : Char) : List Char :=
  ['\\', 'u', '\x7b'] ++ Nat.toDigits 16 c.toNat ++ ['\x7d']

/-- How a character is shown. -/
def shownChar (c : Char) : List Char :=
  match c with
  | '\x00' => ['\\', '0']
  | '\t' => ['\\', 't']
  | '\r' => ['\\', 'r']
  | '\n' => ['\\', 'n']
  | '\\' => ['\\', '\\']
  | '"' => ['\\', '"']
  | c => if isShownByNumber c then numberEscape c else [c]

/-- A text between double quotes. -/
def shown (s : String) : String :=
  String.ofList ('"' :: s.toList.flatMap shownChar ++ ['"'])

end QueryTree.Text
