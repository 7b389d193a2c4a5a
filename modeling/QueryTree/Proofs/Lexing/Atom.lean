import QueryTree.Proofs.Lexing.QuotedName
import QueryTree.Sql.Lexeme

/-!
# Reading the text of a statement

A text is read character by character, with no knowledge of how it was written: quoted names and
quoted texts are passed over as wholes, and a quote inside them is written twice.

* `Atom`: the units that a text is split into, with their spelling `Atom.text`.
* `Reader`: what is known about the unit that is being read.
* `Reader.step`: one character; `Reader.read`: all of them.
* `atoms?`: the units of a whole text, `none` if a quoted one does not end.

The lemmas say what is read from a word, a literal, a quoted name and a placeholder in front of
any text that cannot continue them.
-/

namespace QueryTree

/-- A unit of a text. -/
inductive Atom where
  | blank
  | comma
  | opening
  | closing
  /-- A word, an operator or a numeral. -/
  | bare (w : String)
  /-- The same with a parenthesis directly after it. -/
  | head (w : String)
  /-- A text between single quotes. -/
  | literal (s : String)
  /-- Quoted names with dots between them. -/
  | name (parts : List String)
  /-- The placeholder `?`. -/
  | question
  /-- The placeholder `??`. -/
  | doubleQuestion
  /-- A dollar and a number. -/
  | numbered (k : Nat)
deriving DecidableEq, Repr

/-- The spelling of a unit. -/
def Atom.text (dialect : Dialect) : Atom → String
  | .blank => " "
  | .comma => ","
  | .opening => "("
  | .closing => ")"
  | .bare w | .head w => w
  | .literal s => quotePart '\'' s
  | .name parts => quoteParts dialect.quote parts
  | .question => "?"
  | .doubleQuestion => "??"
  | .numbered k => "$" ++ Decimal.natText k

/-- The text of a sequence of units. -/
def Atom.textOf (dialect : Dialect) (atoms : List Atom) : String :=
  String.join (atoms.map (Atom.text dialect))

/-- Whether a unit takes the place of a value. -/
def Atom.isPlaceholder : Atom → Bool
  | .question | .doubleQuestion | .numbered _ => true
  | _ => false

/-- Characters that words, operators and numerals are made of: those without a meaning of their
own. -/
def isBare (dialect : Dialect) (c : Char) : Bool :=
  !([' ', ',', '(', ')', '\'', '?', '$', dialect.quote].contains c)

/-- What is known about the unit that is being read. -/
inductive Reader where
  | between
  | bare (seen : List Char)
  | literal (seen : List Char)
  /-- After a quote, which ends the literal unless another one follows. -/
  | literalQuote (seen : List Char)
  | name (parts : List String) (seen : List Char)
  /-- After a quote, which ends the part unless another one follows. -/
  | nameQuote (parts : List String) (seen : List Char)
  /-- After a whole part and a dot. -/
  | nameDot (parts : List String)
  | question
  | dollar (seen : List Char)
deriving DecidableEq, Repr

namespace Reader

/-- What a character begins between two units. -/
def enter (dialect : Dialect) (c : Char) : List Atom × Reader :=
  if c = ' ' then ([.blank], .between)
  else if c = ',' then ([.comma], .between)
  else if c = '(' then ([.opening], .between)
  else if c = ')' then ([.closing], .between)
  else if c = '\'' then ([], .literal [])
  else if c = '?' then ([], .question)
  else if c = '$' then ([], .dollar [])
  else if c = dialect.quote then ([], .name [] [])
  else ([], .bare [c])

/-- Ends a unit in front of a character. -/
def leave (dialect : Dialect) (unit : Atom) (c : Char) : List Atom × Reader :=
  (unit :: (enter dialect c).1, (enter dialect c).2)

/-- A character after some that make up a word, an operator or a numeral. -/
def afterBare (dialect : Dialect) (seen : List Char) (c : Char) : List Atom × Reader :=
  if isBare dialect c then ([], .bare (seen ++ [c]))
  else if c = '(' then leave dialect (.head (String.ofList seen)) c
  else leave dialect (.bare (String.ofList seen)) c

/-- Reads a character: the units that it ends, and what is known after it. -/
def step (dialect : Dialect) (reader : Reader) (c : Char) : Option (List Atom × Reader) :=
  match reader with
  | .between => some (enter dialect c)
  | .bare seen => some (afterBare dialect seen c)
  | .literal seen =>
    if c = '\'' then some ([], .literalQuote seen) else some ([], .literal (seen ++ [c]))
  | .literalQuote seen =>
    if c = '\'' then some ([], .literal (seen ++ [c]))
    else some (leave dialect (.literal (String.ofList seen)) c)
  | .name parts seen =>
    if c = dialect.quote then some ([], .nameQuote parts seen)
    else some ([], .name parts (seen ++ [c]))
  | .nameQuote parts seen =>
    if c = dialect.quote then some ([], .name parts (seen ++ [c]))
    else if c = '.' then some ([], .nameDot (parts ++ [String.ofList seen]))
    else some (leave dialect (.name (parts ++ [String.ofList seen])) c)
  | .nameDot parts =>
    if c = dialect.quote then some ([], .name parts [])
    else
      let (units, reader) := afterBare dialect ['.'] c
      some (.name parts :: units, reader)
  | .question =>
    if c = '?' then some ([.doubleQuestion], .between) else some (leave dialect .question c)
  | .dollar seen =>
    if Text.isDigit c then some ([], .dollar (seen ++ [c]))
    else if seen.isEmpty then none
    else some (leave dialect (.numbered (Decimal.natOfDigits seen)) c)

/-- The units that the end of the text ends. -/
def finish : Reader → Option (List Atom)
  | .between => some []
  | .bare seen => some [.bare (String.ofList seen)]
  | .literal _ => none
  | .literalQuote seen => some [.literal (String.ofList seen)]
  | .name _ _ => none
  | .nameQuote parts seen => some [.name (parts ++ [String.ofList seen])]
  | .nameDot parts => some [.name parts, .bare "."]
  | .question => some [.question]
  | .dollar seen => if seen.isEmpty then none else some [.numbered (Decimal.natOfDigits seen)]

/-- Reads a text to its end. -/
def read (dialect : Dialect) : Reader → List Char → Option (List Atom)
  | reader, [] => reader.finish
  | reader, c :: cs =>
    match reader.step dialect c with
    | some (units, reader) => (read dialect reader cs).map (units ++ ·)
    | none => none

end Reader

/-- The units of a text. -/
def atoms? (dialect : Dialect) (sql : String) : Option (List Atom) :=
  Reader.read dialect .between sql.toList

namespace Reader

variable {dialect : Dialect}

/-! ## Single characters -/

theorem read_cons (reader : Reader) (c : Char) (cs : List Char) {units : List Atom}
    {next : Reader} (h : reader.step dialect c = some (units, next)) :
    reader.read dialect (c :: cs) = (next.read dialect cs).map (units ++ ·) := by
  rw [read, h]

/-- A character in the middle of a unit. -/
theorem read_inside (reader : Reader) (c : Char) (cs : List Char) {next : Reader}
    (h : reader.step dialect c = some ([], next)) :
    reader.read dialect (c :: cs) = next.read dialect cs := by
  rw [read_cons reader c cs h]
  exact congrFun Option.map_id _

/-- A character that ends a unit is read as if nothing had been read before it. -/
theorem read_of_leave {reader : Reader} {unit : Atom} {c : Char} (cs : List Char)
    (h : reader.step dialect c = some (leave dialect unit c)) :
    reader.read dialect (c :: cs) = (read dialect .between (c :: cs)).map (unit :: ·) := by
  rw [read_cons reader c cs h, read_cons .between c cs rfl, Option.map_map]
  rfl

/-- A unit that the end of the text ends, and the next character too, is read as a whole. -/
theorem read_of_stop {reader : Reader} {unit : Atom} {rest : List Char}
    (hfinish : reader.finish = some [unit])
    (hstep : ∀ c ∈ rest.head?, reader.step dialect c = some (leave dialect unit c)) :
    reader.read dialect rest = (read dialect .between rest).map (unit :: ·) := by
  cases rest with
  | nil =>
      rw [read, hfinish]
      rfl
  | cons c cs => exact read_of_leave cs (hstep c (by simp))

/-- Punctuation: blanks, commas and parentheses, which continue no unit. -/
def isStop (c : Char) : Bool :=
  [' ', ',', '(', ')'].contains c

/-- What may follow a unit: nothing, or punctuation. -/
def Stops (rest : List Char) : Prop :=
  ∀ c ∈ rest.head?, isStop c = true

theorem isBare_of_isStop {c : Char} (h : isStop c = true) : isBare dialect c = false := by
  simp only [isStop, List.contains_eq_mem, decide_eq_true_eq] at h
  simp only [isBare, List.contains_eq_mem, Bool.not_eq_false', decide_eq_true_eq]
  have hsub : [' ', ',', '(', ')'] ⊆ [' ', ',', '(', ')', '\'', '?', '$', dialect.quote] := by
    simp
  exact hsub h

/-- A character that is a unit of its own. -/
theorem read_single {c : Char} {unit : Atom} (cs : List Char)
    (h : enter dialect c = ([unit], .between)) :
    read dialect .between (c :: cs) = (read dialect .between cs).map (unit :: ·) :=
  read_cons .between c cs (congrArg some h)

/-! ## Words -/

theorem read_bare_append (seen w rest : List Char) (hw : ∀ c ∈ w, isBare dialect c = true) :
    read dialect (.bare seen) (w ++ rest) = read dialect (.bare (seen ++ w)) rest := by
  induction w generalizing seen with
  | nil => simp
  | cons c w ih =>
      have hc : isBare dialect c = true := hw c (by simp)
      have hstep : step dialect (.bare seen) c = some ([], .bare (seen ++ [c])) := by
        simp [step, afterBare, hc]
      rw [List.cons_append, read_inside _ _ _ hstep, ih _ (fun x hx => hw x (by simp [hx])),
        List.append_assoc, List.singleton_append]

/-- What a word is read as, by the character after it. -/
def wordAtom (w : String) (rest : List Char) : Atom :=
  if rest.head? = some '(' then .head w else .bare w

theorem read_bare_stops (seen rest : List Char) (hrest : Stops rest) :
    read dialect (.bare seen) rest
      = (read dialect .between rest).map (wordAtom (String.ofList seen) rest :: ·) := by
  cases rest with
  | nil => rfl
  | cons c cs =>
      refine read_of_leave cs ?_
      have hc : isBare dialect c = false := isBare_of_isStop (hrest c (by simp))
      by_cases hp : c = '('
      · subst hp
        simp [step, afterBare, hc, wordAtom]
      · simp [step, afterBare, hc, hp, wordAtom]

theorem enter_of_isBare {c : Char} (h : isBare dialect c = true) :
    enter dialect c = ([], .bare [c]) := by
  simp only [isBare, List.contains_eq_mem, List.mem_cons, List.not_mem_nil, or_false,
    Bool.not_eq_true', decide_eq_false_iff_not, not_or] at h
  simp [enter, h]

/-- A word in front of punctuation or the end. -/
theorem read_word {w : String} {rest : List Char} (hne : w.toList ≠ [])
    (hw : ∀ c ∈ w.toList, isBare dialect c = true) (hrest : Stops rest) :
    read dialect .between (w.toList ++ rest)
      = (read dialect .between rest).map (wordAtom w rest :: ·) := by
  obtain ⟨c, cs, hcs⟩ : ∃ c cs, w.toList = c :: cs := List.exists_cons_of_ne_nil hne
  have hstep : step dialect .between c = some ([], .bare [c]) := by
    rw [step, enter_of_isBare (hw c (by simp [hcs]))]
  rw [hcs, List.cons_append, read_inside _ _ _ hstep,
    read_bare_append _ _ _ (fun x hx => hw x (by simp [hcs, hx])), read_bare_stops _ _ hrest]
  have hback : String.ofList ([c] ++ cs) = w := by
    rw [List.singleton_append, ← hcs, String.ofList_toList]
  rw [hback]

/-! ## Literals -/

theorem read_literal_append (seen s rest : List Char) (hs : '\'' ∉ s) :
    read dialect (.literal seen) (s ++ '\'' :: rest)
      = read dialect (.literalQuote (seen ++ s)) rest := by
  induction s generalizing seen with
  | nil => simp [read, step]
  | cons c s ih =>
      have hc : c ≠ '\'' := by
        rintro rfl
        exact hs (by simp)
      have hstep : step dialect (.literal seen) c = some ([], .literal (seen ++ [c])) := by
        simp [step, hc]
      rw [List.cons_append, read_inside _ _ _ hstep, ih _ (fun h => hs (by simp [h])),
        List.append_assoc, List.singleton_append]

/-- A literal without a quote in it. -/
theorem read_literal {s : String} {rest : List Char} (hs : '\'' ∉ s.toList)
    (hrest : Stops rest) :
    read dialect .between ('\'' :: (s.toList ++ '\'' :: rest))
      = (read dialect .between rest).map (.literal s :: ·) := by
  have hstep : step dialect .between '\'' = some ([], .literal []) := by
    simp [step, enter]
  rw [read_inside _ _ _ hstep, read_literal_append _ _ _ hs]
  refine read_of_stop (by simp [finish]) (fun c hc => ?_)
  have hne : c ≠ '\'' := by
    rintro rfl
    exact absurd (hrest _ hc) (by decide)
  simp [step, hne]

/-! ## Quoted names -/

theorem read_name_append (parts : List String) (seen s rest : List Char) :
    read dialect (.name parts seen) (s.flatMap (doubled dialect.quote) ++ dialect.quote :: rest)
      = read dialect (.nameQuote parts (seen ++ s)) rest := by
  induction s generalizing seen with
  | nil =>
      have hstep : step dialect (.name parts seen) dialect.quote
          = some ([], .nameQuote parts seen) := by
        simp [step]
      rw [List.flatMap_nil, List.nil_append, read_inside _ _ _ hstep, List.append_nil]
  | cons c s ih =>
      by_cases hc : c = dialect.quote
      · -- the quote is written twice: the first one might end the part, the second one denies it
        have hfirst : step dialect (.name parts seen) c = some ([], .nameQuote parts seen) := by
          simp [step, hc]
        have hsecond : step dialect (.nameQuote parts seen) c
            = some ([], .name parts (seen ++ [c])) := by
          simp [step, hc]
        rw [List.flatMap_cons, doubled, if_pos hc, ← hc, List.append_assoc, List.cons_append,
          List.cons_append, List.nil_append, read_inside _ _ _ hfirst,
          read_inside _ _ _ hsecond, hc, ih, List.append_assoc, List.singleton_append]
      · have hstep : step dialect (.name parts seen) c = some ([], .name parts (seen ++ [c])) := by
          simp [step, hc]
        rw [List.flatMap_cons, doubled, if_neg hc, List.append_assoc, List.singleton_append,
          read_inside _ _ _ hstep, ih, List.append_assoc, List.singleton_append]

/-- A text in front of which a quoted name is complete. -/
def EndsName (dialect : Dialect) (rest : List Char) : Prop :=
  ∀ parts seen, read dialect (.nameQuote parts seen) rest
    = (read dialect .between rest).map (.name (parts ++ [String.ofList seen]) :: ·)

theorem endsName_of_stops {rest : List Char} (hrest : Stops rest) : EndsName dialect rest := by
  intro parts seen
  refine read_of_stop rfl (fun c hc => ?_)
  have hbare : isBare dialect c = false := isBare_of_isStop (hrest c hc)
  have hstop : isStop c = true := hrest c hc
  have hdot : c ≠ '.' := by
    rintro rfl
    exact absurd hstop (by decide)
  have hquote : c ≠ dialect.quote := by
    rintro rfl
    exact absurd hstop (by cases dialect <;> decide)
  simp [step, hdot, hquote]

/-- All columns of a table: the dot after the name does not continue it. -/
theorem endsName_star (rest : List Char) : EndsName dialect ('.' :: '*' :: rest) := by
  intro parts seen
  have hq : '.' ≠ dialect.quote ∧ '*' ≠ dialect.quote := by cases dialect <;> decide
  have hb : isBare dialect '.' = true ∧ isBare dialect '*' = true := by cases dialect <;> decide
  have hdot : step dialect (.nameQuote parts seen) '.'
      = some ([], .nameDot (parts ++ [String.ofList seen])) := by
    simp [step, hq.1]
  have hstar : step dialect (.nameDot (parts ++ [String.ofList seen])) '*'
      = some ([.name (parts ++ [String.ofList seen])], .bare ['.', '*']) := by
    simp [step, afterBare, hq.2, hb.2]
  have hdot' : step dialect .between '.' = some ([], .bare ['.']) := by
    rw [step, enter_of_isBare hb.1]
  have hstar' : step dialect (.bare ['.']) '*' = some ([], .bare ['.', '*']) := by
    simp [step, afterBare, hb.2]
  rw [read_inside _ _ _ hdot, read_cons _ _ _ hstar, read_inside _ _ _ hdot',
    read_inside _ _ _ hstar']
  rfl

theorem read_nameQuote_parts (before : List String) (part : String) (parts : List String)
    {rest : List Char} (hrest : EndsName dialect rest) :
    read dialect (.nameQuote before part.toList)
        (parts.flatMap (fun p => '.' :: (quotePart dialect.quote p).toList) ++ rest)
      = (read dialect .between rest).map (.name (before ++ part :: parts) :: ·) := by
  induction parts generalizing before part with
  | nil =>
      rw [List.flatMap_nil, List.nil_append, hrest, String.ofList_toList]
  | cons p parts ih =>
      have hdot : step dialect (.nameQuote before part.toList) '.'
          = some ([], .nameDot (before ++ [part])) := by
        simp [step, dialect.quote_ne_dot.symm]
      have hquote : step dialect (.nameDot (before ++ [part])) dialect.quote
          = some ([], .name (before ++ [part]) []) := by
        simp [step]
      rw [List.flatMap_cons, List.cons_append, List.cons_append, read_inside _ _ _ hdot, quotePart,
        String.toList_ofList]
      simp only [List.cons_append, List.append_assoc, List.nil_append]
      rw [read_inside _ _ _ hquote, read_name_append, List.nil_append, ih, List.append_assoc,
        List.singleton_append]

/-- The characters of quoted names with dots between them. -/
theorem toList_quoteParts_cons (q : Char) (part : String) (parts : List String) :
    (quoteParts q (part :: parts)).toList
      = (quotePart q part).toList ++ parts.flatMap (fun p => '.' :: (quotePart q p).toList) := by
  induction parts generalizing part with
  | nil => simp [quoteParts]
  | cons p parts ih =>
      rw [quoteParts_cons_cons, String.toList_append, String.toList_append, ih]
      simp

/-- A quoted name of at least one part. -/
theorem read_quoteParts {parts : List String} {rest : List Char} (hne : parts ≠ [])
    (hrest : EndsName dialect rest) :
    read dialect .between ((quoteParts dialect.quote parts).toList ++ rest)
      = (read dialect .between rest).map (.name parts :: ·) := by
  obtain ⟨part, parts, rfl⟩ := List.exists_cons_of_ne_nil hne
  have hstep : step dialect .between dialect.quote = some ([], .name [] []) := by
    cases dialect <;> decide
  rw [toList_quoteParts_cons, quotePart, String.toList_ofList]
  simp only [List.cons_append, List.append_assoc, List.nil_append]
  rw [read_inside _ _ _ hstep, read_name_append, List.nil_append, read_nameQuote_parts _ _ _ hrest,
    List.nil_append]

/-! ## Placeholders -/

theorem read_question {rest : List Char} (hrest : Stops rest) :
    read dialect .between ('?' :: rest) = (read dialect .between rest).map (.question :: ·) := by
  have hstep : step dialect .between '?' = some ([], .question) := by
    simp [step, enter]
  rw [read_inside _ _ _ hstep]
  refine read_of_stop rfl (fun c hc => ?_)
  have hne : c ≠ '?' := by
    rintro rfl
    exact absurd (hrest _ hc) (by decide)
  simp [step, hne]

theorem read_doubleQuestion (rest : List Char) :
    read dialect .between ('?' :: '?' :: rest)
      = (read dialect .between rest).map (.doubleQuestion :: ·) := by
  have hfirst : step dialect .between '?' = some ([], .question) := by
    simp [step, enter]
  have hsecond : step dialect .question '?' = some ([.doubleQuestion], .between) := by
    simp [step]
  rw [read_inside _ _ _ hfirst, read_cons _ _ _ hsecond]
  rfl

theorem read_dollar_append (seen digits rest : List Char)
    (h : ∀ c ∈ digits, Text.isDigit c = true) :
    read dialect (.dollar seen) (digits ++ rest)
      = read dialect (.dollar (seen ++ digits)) rest := by
  induction digits generalizing seen with
  | nil => simp
  | cons c digits ih =>
      have hstep : step dialect (.dollar seen) c = some ([], .dollar (seen ++ [c])) := by
        simp [step, h c (by simp)]
      rw [List.cons_append, read_inside _ _ _ hstep, ih _ (fun x hx => h x (by simp [hx])),
        List.append_assoc, List.singleton_append]

/-- A numbered placeholder. -/
theorem read_numbered (k : Nat) {rest : List Char} (hrest : Stops rest) :
    read dialect .between ('$' :: (Decimal.natDigits k ++ rest))
      = (read dialect .between rest).map (.numbered k :: ·) := by
  have hstep : step dialect .between '$' = some ([], .dollar []) := by
    simp [step, enter]
  have hne : Decimal.natDigits k ≠ [] := Nat.toDigits_ne_nil
  rw [read_inside _ _ _ hstep,
    read_dollar_append _ _ _ (fun c hc => Decimal.isDigit_of_mem_natDigits hc), List.nil_append]
  refine read_of_stop (by simp [finish, hne, Decimal.natOfDigits_natDigits]) (fun c hc => ?_)
  have hdigit : Text.isDigit c = false := by
    have hstop : isStop c = true := hrest c hc
    simp only [isStop, List.contains_eq_mem, decide_eq_true_eq, List.mem_cons, List.not_mem_nil,
      or_false] at hstop
    rcases hstop with rfl | rfl | rfl | rfl <;> decide
  simp [step, hdigit, hne, Decimal.natOfDigits_natDigits]

end Reader

end QueryTree
