import QueryTree.Proofs.Lexing.Tidy
import QueryTree.Sql.Fragment

/-!
# The outline of a text

The tokens of a text, with everything between two delimiters put together: parentheses, and the
words `CASE` and `END`. What is left at the top of the outline is what stands at depth zero.

* `tokens?`: the tokens of a text; blanks are dropped, and a function is a word like any other.
* `Piece`, `outline?`, `pieces?`: a token or what is enclosed; the outline of a sequence of tokens
  or of a text, `none` if its delimiters do not match.
* `flatten`, `outline?_flatten`: the tokens of an outline, and that they are read back as it.
* `wordsOf`: the words at depth zero.
* `tokens?_render`: the tokens of a tidy sequence of lexemes.
-/

namespace QueryTree

/-! ## Tokens -/

/-- A unit as a token: blanks count for nothing, and neither does whether a parenthesis follows
directly. -/
def Atom.token? : Atom → Option Atom
  | .blank => none
  | .head w => some (.bare w)
  | a => some a

/-- The tokens of a text. -/
def tokens? (dialect : Dialect) (sql : String) : Option (List Atom) :=
  (atoms? dialect sql).map (·.filterMap Atom.token?)

/-- What a lexeme is read as. -/
def Lexeme.token? (dialect : Dialect) : Lexeme → Option Atom
  | .space => none
  | .comma => some .comma
  | .opening => some .opening
  | .closing => some .closing
  | .word w => some (.bare w)
  | .literal s => some (.literal s)
  | .name parts => some (.name parts)
  | .slot index => some (if dialect.isPositional then .question else .numbered index)
  | .nameSlot => some .doubleQuestion

/-- What a sequence of lexemes is read as. -/
def tokensOf (dialect : Dialect) (ts : List Lexeme) : List Atom :=
  ts.filterMap (Lexeme.token? dialect)

variable {dialect : Dialect}

@[simp] theorem tokensOf_append (ts us : List Lexeme) :
    tokensOf dialect (ts ++ us) = tokensOf dialect ts ++ tokensOf dialect us :=
  List.filterMap_append

theorem token?_atom (t : Lexeme) (next : Option Lexeme) :
    (t.atom dialect next).token? = t.token? dialect := by
  cases t with
  | word w =>
      simp only [Lexeme.atom, Lexeme.token?]
      split <;> rfl
  | slot index =>
      simp only [Lexeme.atom, Lexeme.token?]
      split <;> rfl
  | _ => rfl

theorem filterMap_token?_atomsOf (ts : List Lexeme) :
    (atomsOf dialect ts).filterMap Atom.token? = tokensOf dialect ts := by
  induction ts with
  | nil => rfl
  | cons t ts ih =>
      rw [atomsOf, List.filterMap_cons, token?_atom, ih, tokensOf, tokensOf, List.filterMap_cons]

/-- The text of a tidy sequence is read token by token. -/
theorem tokens?_render {ts : List Lexeme} (h : Tidy dialect ts) :
    tokens? dialect (render dialect ts) = some (tokensOf dialect ts) := by
  rw [tokens?, atoms?_render h, Option.map_some, filterMap_token?_atomsOf]

/-! ## Outlines -/

/-- The delimiters that a token opens. -/
def Atom.opens? : Atom → Option Delimiters
  | .opening => some .parens
  | .bare "CASE" => some .cases
  | _ => none

/-- The delimiters that a token closes. -/
def Atom.closes? : Atom → Option Delimiters
  | .closing => some .parens
  | .bare "END" => some .cases
  | _ => none

/-- Whether a token is neither the first nor the last of two delimiters. -/
def Atom.isInner (a : Atom) : Bool :=
  a.opens?.isNone && a.closes?.isNone

/-- A token, or all that stands between two delimiters. -/
inductive Piece where
  | token (a : Atom)
  | enclosed (delimiters : Delimiters) (body : List Piece)
deriving Repr

/-- Reads tokens after the pieces `seen`. The delimiters that are still open stand in `around`,
innermost first, each with the pieces before it. -/
def outlineFrom : List (Delimiters × List Piece) → List Piece → List Atom → Option (List Piece)
  | [], seen, [] => some seen
  | _ :: _, _, [] => none
  | around, seen, a :: rest =>
    match a.opens?, a.closes? with
    | some delimiters, _ => outlineFrom ((delimiters, seen) :: around) [] rest
    | none, some delimiters =>
      match around with
      | (opened, before) :: around =>
        if opened = delimiters then
          outlineFrom around (before ++ [.enclosed delimiters seen]) rest
        else none
      | [] => none
    | none, none => outlineFrom around (seen ++ [.token a]) rest

/-- The outline of a sequence of tokens. -/
def outline? (tokens : List Atom) : Option (List Piece) :=
  outlineFrom [] [] tokens

/-- The outline of a text. -/
def pieces? (dialect : Dialect) (sql : String) : Option (List Piece) :=
  (tokens? dialect sql).bind outline?

/-- The token that opens. -/
def Delimiters.opener : Delimiters → Atom
  | .parens => .opening
  | .cases => .bare "CASE"

/-- The token that closes. -/
def Delimiters.closer : Delimiters → Atom
  | .parens => .closing
  | .cases => .bare "END"

mutual

/-- The tokens of a piece. -/
def Piece.tokens : Piece → List Atom
  | .token a => [a]
  | .enclosed delimiters body => delimiters.opener :: (flatten body ++ [delimiters.closer])

/-- The tokens of an outline. -/
def flatten : List Piece → List Atom
  | [] => []
  | p :: ps => p.tokens ++ flatten ps

end

mutual

/-- No delimiter stands alone. -/
def Piece.Paired : Piece → Prop
  | .token a => a.isInner = true
  | .enclosed _ body => PairedPieces body

/-- No delimiter stands alone in any of the pieces. -/
def PairedPieces : List Piece → Prop
  | [] => True
  | p :: ps => p.Paired ∧ PairedPieces ps

end

@[simp] theorem flatten_append (ps qs : List Piece) :
    flatten (ps ++ qs) = flatten ps ++ flatten qs := by
  induction ps with
  | nil => rfl
  | cons p ps ih => simp only [List.cons_append, flatten, ih, List.append_assoc]

theorem PairedPieces.append {ps qs : List Piece} (hp : PairedPieces ps) (hq : PairedPieces qs) :
    PairedPieces (ps ++ qs) := by
  induction ps with
  | nil => exact hq
  | cons p ps ih => exact ⟨hp.1, ih hp.2⟩

/-! ## Reading an outline back -/

theorem outlineFrom_token {a : Atom} (h : a.isInner = true)
    (around : List (Delimiters × List Piece)) (seen : List Piece) (rest : List Atom) :
    outlineFrom around seen (a :: rest) = outlineFrom around (seen ++ [.token a]) rest := by
  simp only [Atom.isInner, Bool.and_eq_true, Option.isNone_iff_eq_none] at h
  rw [outlineFrom, h.1, h.2]

theorem outlineFrom_opener (delimiters : Delimiters) (around : List (Delimiters × List Piece))
    (seen : List Piece) (rest : List Atom) :
    outlineFrom around seen (delimiters.opener :: rest)
      = outlineFrom ((delimiters, seen) :: around) [] rest := by
  cases delimiters <;> rw [outlineFrom] <;> rfl

theorem outlineFrom_closer (delimiters : Delimiters) (around : List (Delimiters × List Piece))
    (before seen : List Piece) (rest : List Atom) :
    outlineFrom ((delimiters, before) :: around) seen (delimiters.closer :: rest)
      = outlineFrom around (before ++ [.enclosed delimiters seen]) rest := by
  cases delimiters <;> rw [outlineFrom] <;> rfl

mutual

/-- A piece in front of other tokens is read as a whole, whatever is open around it. -/
theorem outlineFrom_piece : ∀ {p : Piece}, p.Paired →
    ∀ (around : List (Delimiters × List Piece)) (seen : List Piece) (rest : List Atom),
      outlineFrom around seen (p.tokens ++ rest) = outlineFrom around (seen ++ [p]) rest
  | .token a, h, around, seen, rest => outlineFrom_token h around seen rest
  | .enclosed delimiters body, h, around, seen, rest => by
      have hbody : PairedPieces body := h
      rw [Piece.tokens, List.cons_append, outlineFrom_opener, List.append_assoc,
        outlineFrom_flatten hbody, List.singleton_append, outlineFrom_closer, List.nil_append]

theorem outlineFrom_flatten : ∀ {ps : List Piece}, PairedPieces ps →
    ∀ (around : List (Delimiters × List Piece)) (seen : List Piece) (rest : List Atom),
      outlineFrom around seen (flatten ps ++ rest) = outlineFrom around (seen ++ ps) rest
  | [], _, around, seen, rest => by simp [flatten]
  | p :: ps, h, around, seen, rest => by
      rw [flatten, List.append_assoc, outlineFrom_piece h.1, outlineFrom_flatten h.2,
        List.append_assoc, List.singleton_append]

end

/-- **The tokens of an outline are read back as the outline.** -/
theorem outline?_flatten {ps : List Piece} (h : PairedPieces ps) :
    outline? (flatten ps) = some ps := by
  have hread := outlineFrom_flatten h [] [] []
  rw [List.append_nil, List.nil_append] at hread
  exact hread

/-! ## Words at depth zero -/

/-- The word that a piece is. -/
def Piece.word? : Piece → Option String
  | .token (.bare w) => some w
  | _ => none

/-- The words at depth zero. -/
def wordsOf (ps : List Piece) : List String :=
  ps.filterMap Piece.word?

@[simp] theorem wordsOf_append (ps qs : List Piece) :
    wordsOf (ps ++ qs) = wordsOf ps ++ wordsOf qs :=
  List.filterMap_append

end QueryTree
