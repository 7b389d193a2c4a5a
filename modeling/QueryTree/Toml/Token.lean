import QueryTree.Json.Reader

/-!
# Tokens of TOML

A scanner that looks at one character at a time. Comments end with their line, and a line ends
with a line feed or with a carriage return and a line feed.

- `Token`: bare words, strings, punctuation and ends of lines.
- `Scan`, `Scan.step?`: where the scanner stands, and what a character does to it.
- `tokens?`: the tokens of a text.
-/

namespace QueryTree.Toml

open Json (hexValue? charOfCode?)

/-- A token of TOML. -/
inductive Token where
  | bare (s : String)
  | text (s : String)
  | equals
  | dot
  | comma
  | openBracket
  | closeBracket
  | openBrace
  | closeBrace
  | newline
deriving DecidableEq, Repr

/-- Where the scanner stands. Characters of words and strings are kept in reverse. -/
inductive Scan where
  | between
  | bare (done : List Char)
  | basic (done : List Char)
  | escape (done : List Char)
  | code (done : List Char) (left : Nat) (value : Nat)
  | literal (done : List Char)
  | comment
  | carriageReturn

/-- Characters of bare words: those of keys and those of numbers. -/
def isBareChar (c : Char) : Bool :=
  c.isAlphanum || c == '_' || c == '-' || c == '+' || c == ':'

/-- Control characters that may not stand in strings and comments. -/
def isControl (c : Char) : Bool :=
  (c.toNat < 32 && c != '\t') || c.toNat == 127

/-- A character between two tokens. -/
def Scan.start? (c : Char) : Option (Scan × List Token) :=
  match c with
  | ' ' | '\t' => some (.between, [])
  | '\n' => some (.between, [.newline])
  | '\r' => some (.carriageReturn, [])
  | '#' => some (.comment, [])
  | '=' => some (.between, [.equals])
  | '.' => some (.between, [.dot])
  | ',' => some (.between, [.comma])
  | '[' => some (.between, [.openBracket])
  | ']' => some (.between, [.closeBracket])
  | '\x7b' => some (.between, [.openBrace])
  | '\x7d' => some (.between, [.closeBrace])
  | '"' => some (.basic [], [])
  | '\'' => some (.literal [], [])
  | c => if isBareChar c then some (.bare [c], []) else none

/-- The character of a one-letter escape. -/
def simpleEscape? : Char → Option Char
  | 'b' => some '\x08'
  | 't' => some '\t'
  | 'n' => some '\n'
  | 'f' => some '\x0c'
  | 'r' => some '\r'
  | '"' => some '"'
  | '\\' => some '\\'
  | _ => none

/-- What a character does to the scanner: where it stands next, and the tokens that are
complete. -/
def Scan.step? (c : Char) : Scan → Option (Scan × List Token)
  | .between => Scan.start? c
  | .bare done =>
    if isBareChar c then some (.bare (c :: done), [])
    else
      (Scan.start? c).map fun (next, tokens) =>
        (next, .bare (String.ofList done.reverse) :: tokens)
  | .basic done =>
    if c == '"' then some (.between, [.text (String.ofList done.reverse)])
    else if c == '\\' then some (.escape done, [])
    else if isControl c then none
    else some (.basic (c :: done), [])
  | .escape done =>
    match c with
    | 'u' => some (.code done 4 0, [])
    | 'U' => some (.code done 8 0, [])
    | c => (simpleEscape? c).map fun ch => (.basic (ch :: done), [])
  | .code done left value => do
    let value := 16 * value + (← hexValue? c)
    if 1 < left then return (.code done (left - 1) value, [])
    let ch ← charOfCode? value
    return (.basic (ch :: done), [])
  | .literal done =>
    if c == '\'' then some (.between, [.text (String.ofList done.reverse)])
    else if isControl c then none
    else some (.literal (c :: done), [])
  | .comment =>
    match c with
    | '\n' => some (.between, [.newline])
    | '\r' => some (.carriageReturn, [])
    | c => if isControl c then none else some (.comment, [])
  | .carriageReturn => if c == '\n' then some (.between, [.newline]) else none

/-- The tokens of a text from where the scanner stands; a line feed is taken to follow it. -/
def Scan.tokens? : Scan → List Char → Option (List Token)
  | .carriageReturn, [] => none
  | scan, [] => do
    match ← scan.step? '\n' with
    | (.between, tokens) => return tokens
    | _ => failure
  | scan, c :: cs => do
    let (next, tokens) ← scan.step? c
    return tokens ++ (← next.tokens? cs)

/-- The tokens of a text. -/
def tokens? (s : String) : Option (List Token) :=
  Scan.between.tokens? s.toList

end QueryTree.Toml
