import Mathlib.Data.List.Forall2
import QueryTree.Proofs.Emission.Grammar
import QueryTree.Proofs.Nesting.Outline

/-!
# What a fragment shows from outside

Whether a fragment can be put next to an operator without parentheses depends on what stands at
depth zero of its text. That can be told from the fragment, before anything is bound.

* `Face`, `Fragment.face`: nothing is written; something is, but no comparison and no connective at
  depth zero; one of these shows; or even a word that begins a clause does.
* `Fragment.surface`: the words at depth zero.
* `Fragment.halts`: there is an error somewhere, so that nothing is ever written.
* `Fragment.Paired`, `Grammar.paired`: delimiters come from enclosed fragments only.
* `Fragment.exists_outlines`: the text of a fragment has an outline, and what stands at its top.
-/

namespace QueryTree

open Fragment (tokens)

/-! ## Faces -/

/-- Comparison operators and connectives. -/
def relations : List String :=
  ["=", "!=", "<", ">", "<=", ">=", "LIKE", "IN", "BETWEEN", "IS", "AND", "OR"]

/-- Words that begin a clause. -/
def clauseWords : List String :=
  ["SELECT", "FROM", "JOIN", "ON", "USING", "WHERE", "GROUP", "HAVING", "ORDER", "LIMIT", "OFFSET",
    "INSERT", "VALUES", "UPDATE", "SET", "DELETE", "WHEN", "THEN", "ELSE"]

/-- What shows of a fragment from outside. -/
inductive Face where
  /-- Nothing is written. -/
  | blank
  /-- All comparisons and connectives are enclosed. -/
  | closed
  /-- A comparison or a connective stands at depth zero. -/
  | exposed
  /-- A word that begins a clause stands at depth zero. -/
  | clausal
deriving DecidableEq, Repr

namespace Face

/-- What two fragments show side by side. -/
def join : Face → Face → Face
  | .clausal, _ | _, .clausal => .clausal
  | .exposed, _ | _, .exposed => .exposed
  | .closed, _ | _, .closed => .closed
  | .blank, .blank => .blank

theorem join_eq_blank {a b : Face} : a.join b = .blank ↔ a = .blank ∧ b = .blank := by
  cases a <;> cases b <;> decide

theorem join_eq_clausal {a b : Face} : a.join b = .clausal ↔ a = .clausal ∨ b = .clausal := by
  cases a <;> cases b <;> decide

theorem join_eq_exposed {a b : Face} (ha : a ≠ .clausal) (hb : b ≠ .clausal) :
    a.join b = .exposed ↔ a = .exposed ∨ b = .exposed := by
  cases a <;> cases b <;> simp_all [join]

end Face

/-- What a word shows. -/
def wordFace (w : String) : Face :=
  if w ∈ clauseWords then .clausal else if w ∈ relations then .exposed else .closed

theorem wordFace_ne_blank (w : String) : wordFace w ≠ .blank := by
  unfold wordFace
  split
  · simp
  · split <;> simp

theorem wordFace_eq_clausal (w : String) : wordFace w = .clausal ↔ w ∈ clauseWords := by
  unfold wordFace
  split
  · simpa
  · split <;> simpa

theorem wordFace_eq_exposed {w : String} (h : w ∉ clauseWords) :
    wordFace w = .exposed ↔ w ∈ relations := by
  unfold wordFace
  split
  · contradiction
  · split <;> simpa

namespace Lexeme

/-- What a lexeme shows. -/
def face : Lexeme → Face
  | .space => .blank
  | .word w => wordFace w
  | _ => .closed

/-- The word that a lexeme is. -/
def word? : Lexeme → Option String
  | .word w => some w
  | _ => none

/-- Whether a lexeme is neither the first nor the last of two delimiters. -/
def isInner : Lexeme → Bool
  | .opening | .closing => false
  | .word w => standsAlone w
  | _ => true

theorem face_eq_clausal (t : Lexeme) :
    t.face = .clausal ↔ ∃ w ∈ t.word?, w ∈ clauseWords := by
  cases t with
  | word w => simpa [face, word?] using wordFace_eq_clausal w
  | _ => simp [face, word?]

theorem face_eq_exposed {t : Lexeme} (h : t.face ≠ .clausal) :
    t.face = .exposed ↔ ∃ w ∈ t.word?, w ∈ relations := by
  cases t with
  | word w =>
      have hw : w ∉ clauseWords := fun hw => h ((wordFace_eq_clausal w).2 hw)
      simpa [face, word?] using wordFace_eq_exposed hw
  | _ => simp [face, word?]

end Lexeme

namespace Fragment

/-- What a fragment shows. -/
def face : Fragment → Face
  | .empty | .mode _ | .fail _ => .blank
  | .token t => t.face
  | .value _ | .secret _ | .path _ | .outputName _ | .enclosed _ _ => .closed
  | .append first second | .crossed first second => first.face.join second.face
  | .led _ body => Face.closed.join body.face

/-- The words of a fragment at depth zero. -/
def surface : Fragment → List String
  | .token t => t.word?.toList
  | .append first second | .crossed first second => first.surface ++ second.surface
  | .led _ body => body.surface
  | _ => []

/-- Whether there is an error somewhere in a fragment. All parts of a fragment are bound, so that
it is never written then. -/
def halts : Fragment → Bool
  | .fail _ => true
  | .enclosed _ body | .led _ body => body.halts
  | .append first second | .crossed first second => first.halts || second.halts
  | _ => false

/-- Delimiters come from enclosed fragments only. -/
def Paired : Fragment → Prop
  | .token t => t.isInner = true
  | .enclosed _ body | .led _ body => body.Paired
  | .append first second | .crossed first second => first.Paired ∧ second.Paired
  | _ => True

theorem face_eq_clausal (f : Fragment) :
    f.face = .clausal ↔ ∃ w ∈ f.surface, w ∈ clauseWords := by
  induction f with
  | token t => simpa [face, surface] using t.face_eq_clausal
  | append first second ihf ihs =>
      simp [face, surface, Face.join_eq_clausal, ihf, ihs, or_and_right, exists_or]
  | crossed left right ihl ihr =>
      simp [face, surface, Face.join_eq_clausal, ihl, ihr, or_and_right, exists_or]
  | led v body ih => simpa [face, surface, Face.join_eq_clausal] using ih
  | _ => simp [face, surface]

/-- Apart from fragments that show clauses, the face says whether a comparison or a connective
stands at depth zero. -/
theorem face_eq_exposed {f : Fragment} (h : f.face ≠ .clausal) :
    f.face = .exposed ↔ ∃ w ∈ f.surface, w ∈ relations := by
  induction f with
  | token t => simpa [face, surface] using t.face_eq_exposed h
  | append first second ihf ihs =>
      obtain ⟨hf, hs⟩ := not_or.1 (mt Face.join_eq_clausal.2 h)
      simp [face, surface, Face.join_eq_exposed hf hs, ihf hf, ihs hs, or_and_right, exists_or]
  | crossed left right ihl ihr =>
      obtain ⟨hl, hr⟩ := not_or.1 (mt Face.join_eq_clausal.2 h)
      simp [face, surface, Face.join_eq_exposed hl hr, ihl hl, ihr hr, or_and_right, exists_or]
  | led v body ih =>
      obtain ⟨-, hb⟩ := not_or.1 (mt Face.join_eq_clausal.2 h)
      simp [face, surface, Face.join_eq_exposed (a := .closed) (by simp) hb, ih hb]
  | _ => simp [face, surface]

variable {dialect : Dialect}

/-- What is bound without an error does not halt. -/
theorem halts_eq_false_of_run {f : Fragment} {b b' : Bindings} {ts : List Lexeme}
    (h : f.run dialect b = (.ok ts, b')) : f.halts = false := by
  induction f generalizing b b' ts with
  | fail e => simp [run] at h
  | enclosed delimiters body ih =>
      obtain ⟨us, hbody, -⟩ := run_enclosed_ok.1 h
      exact ih hbody
  | append first second ihf ihs =>
      obtain ⟨ts₁, b₁, ts₂, hfirst, hsecond, -⟩ := run_append_ok.1 h
      simp [halts, ihf hfirst, ihs hsecond]
  | crossed left right ihl ihr =>
      obtain ⟨us, b₁, ls, hright, hleft, -⟩ := run_crossed_ok.1 h
      simp [halts, ihl hleft, ihr hright]
  | led v body ih =>
      obtain ⟨us, b₁, hbody, -⟩ := run_led_ok.1 h
      exact ih hbody
  | _ => rfl

end Fragment

variable {dialect : Dialect}

/-! ## Phrases are paired -/

theorem standsAlone_of_mem_functions {w : String} (h : w ∈ dialect.functions) :
    standsAlone w = true := by
  have hall : ∀ w ∈ dialect.functions, standsAlone w = true := by cases dialect <;> decide +kernel
  exact hall w h

theorem paired_separator {ts : List Lexeme} (h : Separator dialect ts) : (tokens ts).Paired := by
  cases h with
  | space => simp [tokens, Fragment.Paired, Lexeme.isInner]
  | comma => simp [tokens, Fragment.Paired, Lexeme.isInner]
  | operator hw =>
      have halone := (Dialect.mem_phraseWords.1 hw).2
      exact ⟨rfl, halone, rfl, trivial⟩

/-- **The delimiters of a phrase are paired.** -/
theorem Grammar.paired {role : Role} {f : Fragment} (h : Grammar dialect role f)
    (hf : f.halts = false) : f.Paired := by
  induction h with
  | word hw => exact (Dialect.mem_phraseWords.1 hw).2
  | halted e _ => simp [Fragment.halts] at hf
  | mode m _ _ ih => exact ⟨trivial, ih (by simpa [Fragment.halts] using hf)⟩
  | parens _ ih => exact ih hf
  | call hw _ ih =>
      exact ⟨standsAlone_of_mem_functions hw, ih (by simpa [Fragment.halts] using hf)⟩
  | led _ _ _ ih =>
      simp only [Fragment.halts, Bool.or_eq_false_iff] at hf
      exact ⟨paired_separator (Separator.comma : Separator dialect _), ih hf.2⟩
  | cases _ ih => exact ih hf
  | joined hsep _ _ ihf ihg =>
      simp only [Fragment.halts, Bool.or_eq_false_iff] at hf
      exact ⟨⟨ihf hf.1.1, paired_separator hsep⟩, ihg hf.2⟩
  | crossed _ _ ihl ihr =>
      simp only [Fragment.halts, Bool.or_eq_false_iff] at hf
      exact ⟨ihl hf.1, by simp [tokens, Fragment.Paired, Lexeme.isInner], ihr hf.2.2⟩
  | followed _ _ ihf ihg =>
      simp only [Fragment.halts, Bool.or_eq_false_iff] at hf
      exact ⟨ihf hf.1, ihg hf.2⟩
  | clause _ ih => exact ⟨rfl, ih (by simpa [Fragment.halts] using hf)⟩
  | clauses _ _ ihf ihg =>
      simp only [Fragment.halts, Bool.or_eq_false_iff] at hf
      exact ⟨ihf hf.1, ihg hf.2⟩
  | whole _ ih => exact ih hf
  | star s => exact ⟨rfl, (standsAlone_iff _).2 (by simp)⟩
  | _ => simp [Fragment.Paired, Lexeme.isInner]

/-! ## Outlines of what is written -/

/-- The tokens of the lexemes are those of an outline. -/
structure Outlines (dialect : Dialect) (ts : List Lexeme) (ps : List Piece) : Prop where
  tokens_eq : tokensOf dialect ts = flatten ps
  paired : PairedPieces ps

namespace Outlines

theorem nil : Outlines dialect [] [] :=
  ⟨rfl, trivial⟩

theorem append {ts us : List Lexeme} {ps qs : List Piece} (hts : Outlines dialect ts ps)
    (hus : Outlines dialect us qs) : Outlines dialect (ts ++ us) (ps ++ qs) :=
  ⟨by rw [tokensOf_append, flatten_append, hts.tokens_eq, hus.tokens_eq],
    hts.paired.append hus.paired⟩

theorem space : Outlines dialect [.space] [] :=
  ⟨rfl, trivial⟩

/-- Outlines with a separator between them. -/
theorem intercalate {separator : List Lexeme} {qs : List Piece}
    (hs : Outlines dialect separator qs) {tss : List (List Lexeme)} {pss : List (List Piece)}
    (h : List.Forall₂ (Outlines dialect) tss pss) :
    Outlines dialect (separator.intercalate tss) (qs.intercalate pss) := by
  induction h with
  | nil => exact .nil
  | cons hfirst hrest ih =>
      cases hrest with
      | nil => simpa [List.intercalate] using hfirst
      | cons hsecond hrest =>
          have happend := (hfirst.append hs).append ih
          simpa [List.intercalate] using happend

theorem enclosed {ts : List Lexeme} {ps : List Piece} (delimiters : Delimiters)
    (h : Outlines dialect ts ps) :
    Outlines dialect (delimiters.left ++ ts ++ delimiters.right) [.enclosed delimiters ps] := by
  refine ⟨?_, h.paired, trivial⟩
  rw [tokensOf_append, tokensOf_append, h.tokens_eq]
  cases delimiters <;> simp [tokensOf, Delimiters.left, Delimiters.right, Lexeme.token?, flatten,
    Piece.tokens, Delimiters.opener, Delimiters.closer, List.filterMap_cons]

end Outlines

theorem isInner_token {t : Lexeme} (h : t.isInner = true) {a : Atom}
    (ha : t.token? dialect = some a) : a.isInner = true := by
  cases t with
  | word w =>
      obtain ⟨hcase, hend⟩ := (standsAlone_iff w).1 h
      cases ha
      simp [Atom.isInner, Atom.opens?, Atom.closes?, hcase, hend]
  | slot index =>
      cases ha
      cases dialect <;> rfl
  | opening => cases h
  | closing => cases h
  | space => cases ha
  | _ =>
      cases ha
      rfl

/-- The pieces of a lexeme that is no delimiter. -/
def Lexeme.pieces (dialect : Dialect) (t : Lexeme) : List Piece :=
  (t.token? dialect).toList.map .token

theorem Lexeme.outlines_pieces {t : Lexeme} (h : t.isInner = true) :
    Outlines dialect [t] (t.pieces dialect) := by
  unfold Lexeme.pieces
  cases ha : t.token? dialect with
  | none => exact ⟨by simp [tokensOf, ha, flatten], trivial⟩
  | some a => exact ⟨by simp [tokensOf, ha, flatten, Piece.tokens], isInner_token h ha, trivial⟩

theorem Lexeme.wordsOf_pieces (t : Lexeme) (h : t.isInner = true) :
    wordsOf (t.pieces dialect) = t.word?.toList := by
  cases t with
  | slot index => cases dialect <;> rfl
  | opening => cases h
  | closing => cases h
  | _ => rfl

theorem Lexeme.pieces_eq_nil (t : Lexeme) : t.pieces dialect = [] ↔ t.face = .blank := by
  cases t with
  | word w => simp [Lexeme.pieces, Lexeme.token?, Lexeme.face, wordFace_ne_blank]
  | _ => simp [Lexeme.pieces, Lexeme.token?, Lexeme.face]

/-- What the outline of a text has to do with the fragment that was written. -/
structure Fragment.Reads (f : Fragment) (ps : List Piece) : Prop where
  words_eq : wordsOf ps = f.surface
  nil_iff : ps = [] ↔ f.face = .blank

namespace Fragment

/-- What a leaf writes is a single lexeme that is no delimiter, no word and no space. -/
theorem exists_outlines_leaf {f : Fragment} {t : Lexeme} (h : t.isInner = true)
    (hword : t.word? = none) (hface : t.face = .closed) (hsurface : f.surface = [])
    (hf : f.face = .closed) : ∃ ps, Outlines dialect [t] ps ∧ f.Reads ps := by
  refine ⟨_, t.outlines_pieces h, ?_, ?_⟩
  · rw [t.wordsOf_pieces h, hword, hsurface, Option.toList_none]
  · rw [t.pieces_eq_nil, hface, hf]

/-- **The text of a paired fragment has an outline.** The words at depth zero are those of its
surface, and nothing is written exactly if its face is blank. -/
theorem exists_outlines {f : Fragment} (hf : f.Paired) {b b' : Bindings} {ts : List Lexeme}
    (hrun : f.run dialect b = (.ok ts, b')) : ∃ ps, Outlines dialect ts ps ∧ f.Reads ps := by
  induction f generalizing b b' ts with
  | empty =>
      cases hrun
      exact ⟨[], .nil, rfl, by simp [face]⟩
  | token t =>
      cases hrun
      exact ⟨_, t.outlines_pieces hf, t.wordsOf_pieces hf, t.pieces_eq_nil⟩
  | value v =>
      cases hrun
      exact exists_outlines_leaf rfl rfl rfl rfl rfl
  | secret s =>
      cases hrun
      exact exists_outlines_leaf rfl rfl rfl rfl rfl
  | path p => cases dialect <;> cases hrun <;> exact exists_outlines_leaf rfl rfl rfl rfl rfl
  | outputName name =>
      cases dialect <;> cases hrun <;> exact exists_outlines_leaf rfl rfl rfl rfl rfl
  | mode m =>
      obtain ⟨-, rfl⟩ := run_mode_ok.1 hrun
      exact ⟨[], .nil, rfl, by simp [face]⟩
  | fail e => simp [run] at hrun
  | enclosed delimiters body ih =>
      obtain ⟨us, hbody, rfl⟩ := run_enclosed_ok.1 hrun
      obtain ⟨ps, hps, -⟩ := ih hf hbody
      exact ⟨_, hps.enclosed delimiters, rfl, by simp [face]⟩
  | append first second ihf ihs =>
      obtain ⟨ts₁, b₁, ts₂, hfirst, hsecond, rfl⟩ := run_append_ok.1 hrun
      obtain ⟨ps, hps, hreads⟩ := ihf hf.1 hfirst
      obtain ⟨qs, hqs, hreads'⟩ := ihs hf.2 hsecond
      refine ⟨ps ++ qs, hps.append hqs, ?_, ?_⟩
      · rw [wordsOf_append, hreads.words_eq, hreads'.words_eq, surface]
      · rw [List.append_eq_nil_iff, hreads.nil_iff, hreads'.nil_iff, face, Face.join_eq_blank]
  | crossed left right ihl ihr =>
      obtain ⟨us, b₁, ls, hright, hleft, rfl⟩ := run_crossed_ok.1 hrun
      obtain ⟨ps, hps, hreads⟩ := ihl hf.1 hleft
      obtain ⟨qs, hqs, hreads'⟩ := ihr hf.2 hright
      refine ⟨ps ++ qs, hps.append hqs, ?_, ?_⟩
      · rw [wordsOf_append, hreads.words_eq, hreads'.words_eq, surface]
      · rw [List.append_eq_nil_iff, hreads.nil_iff, hreads'.nil_iff, face, Face.join_eq_blank]
  | led v body ih =>
      obtain ⟨us, b₁, hbody, rfl, -⟩ := run_led_ok.1 hrun
      obtain ⟨ps, hps, hreads⟩ := ih hf hbody
      refine ⟨_, (Lexeme.outlines_pieces rfl).append hps, ?_, ?_⟩
      · rw [wordsOf_append, hreads.words_eq, Lexeme.wordsOf_pieces _ rfl]
        rfl
      · simp [Lexeme.pieces_eq_nil, Lexeme.face, face, Face.join_eq_blank]

end Fragment

/-- The outline of a tidy text. -/
theorem Outlines.pieces_eq {ts : List Lexeme} {ps : List Piece} (h : Outlines dialect ts ps)
    (htidy : Tidy dialect ts) : pieces? dialect (render dialect ts) = some ps := by
  rw [pieces?, tokens?_render htidy, Option.bind_some, h.tokens_eq]
  exact outline?_flatten h.paired

/-- **The text of a phrase has an outline.** -/
theorem Grammar.exists_pieces {f : Fragment} (h : Phrase dialect f) {b b' : Bindings}
    {ts : List Lexeme} (hrun : f.run dialect b = (.ok ts, b')) :
    ∃ ps, pieces? dialect (render dialect ts) = some ps ∧ Outlines dialect ts ps ∧ f.Reads ps := by
  have hhalts := Fragment.halts_eq_false_of_run hrun
  obtain ⟨ps, hps, hreads⟩ := Fragment.exists_outlines (h.paired hhalts) hrun
  exact ⟨ps, hps.pieces_eq (h.tidy hrun), hps, hreads⟩

end QueryTree
