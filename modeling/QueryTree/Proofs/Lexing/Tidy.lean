import QueryTree.Proofs.Lexing.Lexicon

/-!
# Tidy sequences of lexemes

A sequence of lexemes is tidy if each of them is one that the dialect has, and no two of them run
into each other. Its text is then read back lexeme by lexeme.

* `Tidy`: tidy sequences; `Tidy.append` puts two of them together.
* `atomsOf`: what the lexemes of a sequence are read as.
* `atoms?_render`: the text of a tidy sequence is read as `atomsOf` says.
* `textOf_atomsOf`, `admitted_atomsOf`: the units make up the whole text, and the dialect admits
  each of them.
-/

namespace QueryTree

open Reader (Stops EndsName)

namespace Lexeme

/-- Lexemes that nothing runs into. -/
def isPunctuation : Lexeme → Bool
  | .space | .comma | .opening | .closing => true
  | _ => false

/-- Punctuation that may follow any lexeme: an opening parenthesis would turn a word into a
function. -/
def isSeparator : Lexeme → Bool
  | .space | .comma | .closing => true
  | _ => false

/-- Nothing follows, or punctuation. -/
def Clear (next : Option Lexeme) : Prop :=
  ∀ t ∈ next, t.isPunctuation = true

/-- Whether the dialect has a lexeme, with what follows it. -/
def Fits (dialect : Dialect) (t : Lexeme) (next : Option Lexeme) : Prop :=
  match t with
  | .space | .comma | .opening | .closing => True
  | .word w =>
    if next = some .opening then w ∈ dialect.functions else w ∈ dialect.words ∧ Clear next
  | .literal s => s ∈ dialect.literals ∧ Clear next
  | .name parts =>
    (∃ s, parts = Text.pathParts s ∨ parts = [s]) ∧ (Clear next ∨ next = some (.word ".*"))
  | .slot _ => Clear next
  | .nameSlot => dialect = .mysql ∧ Clear next

/-- What a lexeme is read as, with what follows it. -/
def atom (dialect : Dialect) (t : Lexeme) (next : Option Lexeme) : Atom :=
  match t with
  | .space => .blank
  | .comma => .comma
  | .opening => .opening
  | .closing => .closing
  | .word w => if next = some .opening then .head w else .bare w
  | .literal s => .literal s
  | .name parts => .name parts
  | .slot index => if dialect.isPositional then .question else .numbered index
  | .nameSlot => .doubleQuestion

theorem clear_of_isSeparator {t : Lexeme} (h : t.isSeparator = true) : Clear (some t) := by
  intro u hu
  obtain rfl : t = u := by simpa using hu
  cases t <;> simp_all [isSeparator, isPunctuation]

/-- A lexeme that may stand at the end may stand in front of a separator. -/
theorem Fits.before_separator {dialect : Dialect} {t u : Lexeme} (h : t.Fits dialect none)
    (hu : u.isSeparator = true) : t.Fits dialect (some u) := by
  have hclear : Clear (some u) := clear_of_isSeparator hu
  have hopening : u ≠ .opening := by
    rintro rfl
    simp [isSeparator] at hu
  cases t with
  | space => trivial
  | comma => trivial
  | opening => trivial
  | closing => trivial
  | word w =>
      simp only [Fits, reduceCtorEq, if_false] at h
      simp only [Fits, Option.some.injEq, hopening, if_false]
      exact ⟨h.1, hclear⟩
  | literal s => exact ⟨h.1, hclear⟩
  | name parts => exact ⟨h.1, .inl hclear⟩
  | slot index => exact hclear
  | nameSlot => exact ⟨h.1, hclear⟩

end Lexeme

open Lexeme (Clear)

/-- Every lexeme is one of the dialect, and no two of them run into each other. -/
def Tidy (dialect : Dialect) : List Lexeme → Prop
  | [] => True
  | t :: rest => t.Fits dialect rest.head? ∧ Tidy dialect rest

/-- What the lexemes of a sequence are read as. -/
def atomsOf (dialect : Dialect) : List Lexeme → List Atom
  | [] => []
  | t :: rest => t.atom dialect rest.head? :: atomsOf dialect rest

variable {dialect : Dialect}

/-! ## Putting sequences together -/

/-- A sequence that begins with a separator, or is empty, may follow any other. -/
theorem Tidy.append {ts us : List Lexeme} (hts : Tidy dialect ts) (hus : Tidy dialect us)
    (h : ∀ u ∈ us.head?, u.isSeparator = true) : Tidy dialect (ts ++ us) := by
  induction ts with
  | nil => exact hus
  | cons t ts ih =>
      refine ⟨?_, ih hts.2⟩
      cases ts with
      | nil =>
          cases us with
          | nil => exact hts.1
          | cons u us => exact hts.1.before_separator (h u (by simp))
      | cons t' ts => exact hts.1

theorem Tidy.cons_punctuation {t : Lexeme} {ts : List Lexeme} (ht : t.isPunctuation = true)
    (hts : Tidy dialect ts) : Tidy dialect (t :: ts) := by
  refine ⟨?_, hts⟩
  cases t <;> simp_all [Lexeme.isPunctuation, Lexeme.Fits]

/-! ## Reading back -/

theorem toList_render_cons (t : Lexeme) (ts : List Lexeme) :
    (render dialect (t :: ts)).toList = (t.text dialect).toList ++ (render dialect ts).toList := by
  simp [render]

theorem stops_render {ts : List Lexeme} (h : Clear ts.head?) :
    Stops (render dialect ts).toList := by
  cases ts with
  | nil =>
      intro c hc
      simp [render] at hc
  | cons t ts =>
      have ht : t.isPunctuation = true := h t (by simp)
      intro c hc
      rw [toList_render_cons] at hc
      cases t <;> simp [Lexeme.isPunctuation, Lexeme.text] at ht hc <;> subst hc <;> decide

/-- An opening parenthesis is seen in the text exactly if it is the next lexeme. -/
theorem head?_render_eq_opening {ts : List Lexeme} (h : Clear ts.head?) :
    (render dialect ts).toList.head? = some '(' ↔ ts.head? = some .opening := by
  cases ts with
  | nil => simp [render]
  | cons t ts =>
      have ht : t.isPunctuation = true := h t (by simp)
      rw [toList_render_cons]
      cases t <;> simp [Lexeme.isPunctuation, Lexeme.text] at ht ⊢

theorem read_word_render {w : String} {ts : List Lexeme}
    (h : (Lexeme.word w).Fits dialect ts.head?) :
    Reader.read dialect .between (w.toList ++ (render dialect ts).toList)
      = (Reader.read dialect .between (render dialect ts).toList).map
          ((Lexeme.word w).atom dialect ts.head? :: ·) := by
  have hclear : Clear ts.head? := by
    simp only [Lexeme.Fits] at h
    split at h
    · rename_i hopening
      intro t ht
      rw [hopening] at ht
      obtain rfl : Lexeme.opening = t := by simpa using ht
      rfl
    · exact h.2
  have hword : Dialect.isWord w = true := by
    simp only [Lexeme.Fits] at h
    split at h
    · exact Dialect.isWord_of_mem (.inr h)
    · exact Dialect.isWord_of_mem (.inl h.1)
  have hbare := Dialect.isBare_of_isWord hword dialect
  rw [Reader.read_word hbare.1 hbare.2 (stops_render hclear)]
  simp only [Reader.wordAtom, Lexeme.atom, head?_render_eq_opening hclear]

theorem endsName_render {ts : List Lexeme}
    (h : Clear ts.head? ∨ ts.head? = some (.word ".*")) :
    EndsName dialect (render dialect ts).toList := by
  rcases h with h | h
  · exact Reader.endsName_of_stops (stops_render h)
  · obtain ⟨us, rfl⟩ : ∃ us, ts = .word ".*" :: us := by
      cases ts with
      | nil => simp at h
      | cons t us => exact ⟨us, by simpa using h⟩
    have htext : (render dialect (.word ".*" :: us)).toList
        = '.' :: '*' :: (render dialect us).toList := by
      simp [toList_render_cons, Lexeme.text]
    rw [htext]
    exact Reader.endsName_star _

theorem parts_ne_nil {parts : List String} {s : String}
    (h : parts = Text.pathParts s ∨ parts = [s]) : parts ≠ [] := by
  rcases h with rfl | rfl
  · exact Text.pathParts_ne_nil s
  · simp

/-- A lexeme in front of a sequence is read as a unit of its own. -/
theorem read_render_cons {t : Lexeme} {ts : List Lexeme} (h : t.Fits dialect ts.head?) :
    Reader.read dialect .between (render dialect (t :: ts)).toList
      = (Reader.read dialect .between (render dialect ts).toList).map
          (t.atom dialect ts.head? :: ·) := by
  rw [toList_render_cons]
  cases t with
  | space => simpa [Lexeme.text, Lexeme.atom] using Reader.read_single _ rfl
  | comma => simpa [Lexeme.text, Lexeme.atom] using Reader.read_single _ rfl
  | opening => simpa [Lexeme.text, Lexeme.atom] using Reader.read_single _ rfl
  | closing => simpa [Lexeme.text, Lexeme.atom] using Reader.read_single _ rfl
  | word w => exact read_word_render h
  | literal s =>
      have hquote := Dialect.quote_not_mem_of_mem_literals s h.1
      simpa [Lexeme.text, Lexeme.atom] using Reader.read_literal hquote (stops_render h.2)
  | name parts =>
      obtain ⟨⟨s, hs⟩, hnext⟩ := h
      exact Reader.read_quoteParts (parts_ne_nil hs) (endsName_render hnext)
  | slot index =>
      cases dialect with
      | mysql =>
          simpa [Lexeme.text, Lexeme.atom, Dialect.placeholder, Dialect.isPositional]
            using Reader.read_question (stops_render h)
      | sqlite =>
          simpa [Lexeme.text, Lexeme.atom, Dialect.placeholder, Dialect.isPositional]
            using Reader.read_question (stops_render h)
      | postgresql =>
          simpa [Lexeme.text, Lexeme.atom, Dialect.placeholder, Dialect.isPositional,
            Decimal.natText] using Reader.read_numbered index (stops_render h)
  | nameSlot => simpa [Lexeme.text, Lexeme.atom] using Reader.read_doubleQuestion _

/-- **The text of a tidy sequence is read back lexeme by lexeme.** -/
theorem atoms?_render {ts : List Lexeme} (h : Tidy dialect ts) :
    atoms? dialect (render dialect ts) = some (atomsOf dialect ts) := by
  unfold atoms?
  induction ts with
  | nil => rfl
  | cons t ts ih =>
      rw [read_render_cons h.1, ih h.2]
      rfl

/-! ## What is read -/

theorem text_atom {t : Lexeme} {next : Option Lexeme} (h : t.Fits dialect next) :
    (t.atom dialect next).text dialect = t.text dialect := by
  cases t with
  | space => rfl
  | comma => rfl
  | opening => rfl
  | closing => rfl
  | word w =>
      simp only [Lexeme.atom]
      split <;> rfl
  | literal s =>
      have hquote := Dialect.quote_not_mem_of_mem_literals s h.1
      have hdoubled : s.toList.flatMap (doubled '\'') = s.toList := by
        have hsingle : ∀ c ∈ s.toList, doubled '\'' c = [c] := by
          intro c hc
          rw [doubled, if_neg]
          rintro rfl
          exact hquote hc
        rw [List.flatMap_def, List.map_congr_left hsingle, ← List.flatMap_def,
          List.flatMap_singleton']
      simp only [Lexeme.atom, Atom.text, Lexeme.text, quotePart, hdoubled]
      rw [← String.toList_inj]
      simp
  | name parts => rfl
  | slot index =>
      cases dialect <;> simp [Lexeme.atom, Atom.text, Lexeme.text, Dialect.placeholder,
        Dialect.isPositional]
  | nameSlot => rfl

/-- The units make up the whole text. -/
theorem textOf_atomsOf {ts : List Lexeme} (h : Tidy dialect ts) :
    Atom.textOf dialect (atomsOf dialect ts) = render dialect ts := by
  induction ts with
  | nil => rfl
  | cons t ts ih =>
      have ih := ih h.2
      simp only [Atom.textOf, render] at ih ⊢
      simp only [atomsOf, List.map_cons, String.join_cons, text_atom h.1, ih]

theorem admitted_atom {t : Lexeme} {next : Option Lexeme} (h : t.Fits dialect next) :
    (t.atom dialect next).Admitted dialect := by
  cases t with
  | space => trivial
  | comma => trivial
  | opening => trivial
  | closing => trivial
  | word w =>
      simp only [Lexeme.Fits] at h
      simp only [Lexeme.atom]
      split
      · rename_i hnext
        rwa [if_pos hnext] at h
      · rename_i hnext
        rw [if_neg hnext] at h
        exact h.1
  | literal s => exact h.1
  | name parts =>
      obtain ⟨⟨s, hs⟩, -⟩ := h
      refine ⟨s, ?_⟩
      rcases hs with rfl | rfl
      · exact .inl rfl
      · exact .inr (quotePart_eq_quoteParts _ _).symm
  | slot index => cases dialect <;> simp [Lexeme.atom, Atom.Admitted, Dialect.isPositional]
  | nameSlot => exact h.1

/-- The dialect admits every unit of a tidy sequence. -/
theorem admitted_atomsOf {ts : List Lexeme} (h : Tidy dialect ts) :
    ∀ a ∈ atomsOf dialect ts, a.Admitted dialect := by
  induction ts with
  | nil => simp [atomsOf]
  | cons t ts ih =>
      intro a ha
      rcases List.mem_cons.1 ha with rfl | ha
      · exact admitted_atom h.1
      · exact ih h.2 a ha

end QueryTree
