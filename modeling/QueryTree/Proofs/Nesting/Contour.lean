import Mathlib.Data.List.Chain
import QueryTree.Proofs.Emission.Frame

/-!
# Texts without blanks

What stands in the places where a text must not be blank, told from the contour of its outline:
after the word that begins a clause, on both sides of a connective, and in the parentheses of a
list.

* `Contour`, `contourOf`, `Fragment.contour`: outlines without their names and values, of a text and
  of a fragment.
* `Fragment.exists_contour`: what is written for a fragment has its contour.
* `Contour.Beside`, `Complete`: what may stand side by side, and texts without blanks.
* `Inner`: the parts of such texts.
-/

namespace QueryTree

/-! ## Shapes -/

/-- A token, or all that stands between two delimiters. Names, literals and placeholders are not
told apart. -/
inductive Contour where
  | word (w : String)
  | comma
  | atom
  | enclosed (delimiters : Delimiters) (body : List Contour)
deriving Repr

/-- The contour of a token. -/
def Atom.contour : Atom → Contour
  | .bare w => .word w
  | .comma => .comma
  | _ => .atom

mutual

/-- The contour of a piece. -/
def Piece.contour : Piece → Contour
  | .token a => a.contour
  | .enclosed delimiters body => .enclosed delimiters (contourOf body)

/-- The contour of an outline. -/
def contourOf : List Piece → List Contour
  | [] => []
  | p :: ps => p.contour :: contourOf ps

end

@[simp] theorem contourOf_append (ps qs : List Piece) :
    contourOf (ps ++ qs) = contourOf ps ++ contourOf qs := by
  induction ps with
  | nil => rfl
  | cons p ps ih => simp [contourOf, ih]

/-- The contour of a lexeme that is no delimiter. -/
def Lexeme.contour : Lexeme → List Contour
  | .space => []
  | .comma => [.comma]
  | .word w => [.word w]
  | _ => [.atom]

/-- The contour of a fragment. -/
def Fragment.contour : Fragment → List Contour
  | .token t => t.contour
  | .value _ | .secret _ | .path _ | .outputName _ => [.atom]
  | .enclosed delimiters body => [.enclosed delimiters body.contour]
  | .append first second | .crossed first second => first.contour ++ second.contour
  | .led _ body => .atom :: body.contour
  | .empty | .mode _ | .fail _ => []

variable {dialect : Dialect}

theorem Lexeme.contourOf_pieces {t : Lexeme} (h : t.isInner = true) :
    contourOf (t.pieces dialect) = t.contour := by
  cases t with
  | slot index => cases dialect <;> rfl
  | opening => cases h
  | closing => cases h
  | _ => rfl

namespace Fragment

/-- **What is written for a fragment has its contour.** -/
theorem exists_contour {f : Fragment} (hf : f.Paired) {b b' : Bindings} {ts : List Lexeme}
    (hrun : f.run dialect b = (.ok ts, b')) :
    ∃ ps, Outlines dialect ts ps ∧ contourOf ps = f.contour := by
  -- a leaf writes a single lexeme
  have hleaf : ∀ {t : Lexeme}, t.isInner = true → t.contour = [.atom] →
      ∃ ps, Outlines dialect [t] ps ∧ contourOf ps = [.atom] :=
    fun {t} ht hcontour => ⟨_, t.outlines_pieces ht, (t.contourOf_pieces ht).trans hcontour⟩
  induction f generalizing b b' ts with
  | empty =>
      cases hrun
      exact ⟨[], .nil, rfl⟩
  | token t =>
      cases hrun
      exact ⟨_, t.outlines_pieces hf, t.contourOf_pieces hf⟩
  | value v =>
      cases hrun
      exact hleaf rfl rfl
  | secret s =>
      cases hrun
      exact hleaf rfl rfl
  | path p => cases dialect <;> cases hrun <;> exact hleaf rfl rfl
  | outputName name => cases dialect <;> cases hrun <;> exact hleaf rfl rfl
  | mode m =>
      obtain ⟨-, rfl⟩ := run_mode_ok.1 hrun
      exact ⟨[], .nil, rfl⟩
  | fail e => simp [run] at hrun
  | enclosed delimiters body ih =>
      obtain ⟨us, hbody, rfl⟩ := run_enclosed_ok.1 hrun
      obtain ⟨ps, hps, hcontour⟩ := ih hf hbody
      exact ⟨_, hps.enclosed delimiters, by simp [contourOf, Piece.contour, contour, hcontour]⟩
  | append first second ihf ihs =>
      obtain ⟨ts₁, b₁, ts₂, hfirst, hsecond, rfl⟩ := run_append_ok.1 hrun
      obtain ⟨ps, hps, hcontour⟩ := ihf hf.1 hfirst
      obtain ⟨qs, hqs, hcontour'⟩ := ihs hf.2 hsecond
      exact ⟨ps ++ qs, hps.append hqs, by rw [contourOf_append, hcontour, hcontour', contour]⟩
  | crossed left right ihl ihr =>
      obtain ⟨us, b₁, ls, hright, hleft, rfl⟩ := run_crossed_ok.1 hrun
      obtain ⟨ps, hps, hcontour⟩ := ihl hf.1 hleft
      obtain ⟨qs, hqs, hcontour'⟩ := ihr hf.2 hright
      exact ⟨ps ++ qs, hps.append hqs, by rw [contourOf_append, hcontour, hcontour', contour]⟩
  | led v body ih =>
      obtain ⟨us, b₁, hbody, rfl, -⟩ := run_led_ok.1 hrun
      obtain ⟨ps, hps, hcontour⟩ := ih hf hbody
      refine ⟨_, (Lexeme.outlines_pieces rfl).append hps, ?_⟩
      rw [contourOf_append, Lexeme.contourOf_pieces rfl, hcontour]
      rfl

theorem contour_eq_nil_iff (f : Fragment) : f.contour = [] ↔ f.face = .blank := by
  induction f with
  | token t =>
      cases t with
      | word w => simp [contour, Lexeme.contour, face, Lexeme.face, wordFace_ne_blank]
      | _ => simp [contour, Lexeme.contour, face, Lexeme.face]
  | append first second ihf ihs => simp [contour, face, Face.join_eq_blank, ihf, ihs]
  | crossed left right ihl ihr => simp [contour, face, Face.join_eq_blank, ihl, ihr]
  | led v body ih => simp [contour, face, Face.join_eq_blank]
  | _ => simp [contour, face]

end Fragment

/-! ## What may stand side by side -/

/-- Words that a body follows: those of clauses, and connectives. -/
def bodyWords : List String :=
  ["WHERE", "HAVING", "ON", "SET", "WHEN", "AND", "OR"]

/-- Words that a list in parentheses may follow. -/
def listWords : List String :=
  ["IN", "USING", "CONCAT"]

namespace Contour

/-- Whether a contour is one of some words. -/
def isOneOf (ws : List String) : Contour → Bool
  | .word w => ws.contains w
  | _ => false

/-- Whether what stood before has come to its end. -/
def isStop : Contour → Bool
  | .comma => true
  | .word w => stopWords.contains w
  | .atom | .enclosed .. => false

/-- Whether the list or the first argument in the parentheses after a word is there, if there has
to be one. -/
def ListFilled : Contour → Contour → Prop
  | .word w, .enclosed .parens body =>
    (w ∈ listWords → body ≠ []) ∧ (w = "IF" → ∃ x ∈ body.head?, x.isStop = false)
  | _, _ => True

/-- What stands side by side is not blank where it must not be: after a word that a body follows
there is one, before a connective there is an operand, and lists are filled. -/
structure Beside (x y : Contour) : Prop where
  body : x.isOneOf bodyWords = true → y.isStop = false
  operand : y.isOneOf ["AND", "OR"] = true → x.isStop = false ∧ x.isOneOf ["BETWEEN"] = false
  list : ListFilled x y

end Contour

/-- At depth zero nothing is blank where it must not be, up to the end of a text. -/
structure Final (xs : List Contour) : Prop where
  chain : xs.IsChain Contour.Beside
  last : ∀ x ∈ xs.getLast?, x.isOneOf bodyWords = false

/-- At depth zero of a text nothing is blank where it must not be. -/
structure Closed (xs : List Contour) : Prop extends Final xs where
  head : ∀ x ∈ xs.head?, x.isOneOf ["AND", "OR"] = false

mutual

/-- Nothing is blank between delimiters. -/
def Contour.Whole : Contour → Prop
  | .enclosed _ body => Closed body ∧ WholeAll body
  | .word _ | .comma | .atom => True

/-- Nothing is blank between the delimiters of a text. -/
def WholeAll : List Contour → Prop
  | [] => True
  | x :: xs => x.Whole ∧ WholeAll xs

end

/-- **At no depth is anything blank where it must not be.** -/
structure Complete (xs : List Contour) : Prop extends Closed xs where
  whole : WholeAll xs

theorem wholeAll_iff {xs : List Contour} : WholeAll xs ↔ ∀ x ∈ xs, x.Whole := by
  induction xs with
  | nil => simp [WholeAll]
  | cons x xs ih => simp [WholeAll, ih]

/-! ## Parts that can stand beside others -/

namespace Contour

/-- Whether a contour may stand first: at depth zero nothing has come to its end with it, and inside
delimiters it is no connective. -/
def leads (inside : Bool) (x : Contour) : Bool :=
  if inside then !x.isOneOf ["AND", "OR"] else !x.isStop

/-- Whether a contour may stand last: it asks for nothing after it, and at depth zero nothing has
come to its end with it. -/
def trails (inside : Bool) (x : Contour) : Bool :=
  !x.isOneOf pendingWords && (inside || !x.isStop)

theorem isOneOf_mono {vs ws : List String} (h : ∀ w ∈ vs, w ∈ ws) {x : Contour}
    (hx : x.isOneOf vs = true) : x.isOneOf ws = true := by
  cases x with
  | word w => exact List.contains_iff_mem.2 (h w (List.contains_iff_mem.1 hx))
  | _ => cases hx

theorem isStop_of_connective {x : Contour} (h : x.isOneOf ["AND", "OR"] = true) :
    x.isStop = true := by
  cases x with
  | word w =>
      have hmem : ∀ w ∈ ["AND", "OR"], w ∈ stopWords := by decide
      exact List.contains_iff_mem.2 (hmem w (List.contains_iff_mem.1 h))
  | _ => cases h

variable {inside : Bool} {x y : Contour}

theorem not_pending (h : x.trails inside = true) {ws : List String}
    (hws : ∀ w ∈ ws, w ∈ pendingWords) : x.isOneOf ws = false := by
  obtain ⟨hpending, -⟩ := Bool.and_eq_true_iff.1 h
  rw [Bool.eq_false_iff]
  intro hx
  rw [isOneOf_mono hws hx] at hpending
  cases hpending

theorem isStop_of_trails (h : x.trails false = true) : x.isStop = false := by
  simpa using (Bool.and_eq_true_iff.1 h).2

theorem connective_of_leads (h : x.leads inside = true) : x.isOneOf ["AND", "OR"] = false := by
  cases inside with
  | true => simpa [leads] using h
  | false =>
      rw [Bool.eq_false_iff]
      intro hx
      simp [leads, isStop_of_connective hx] at h

theorem leads_inside (h : x.leads inside = true) : x.leads true = true := by
  simpa [leads] using connective_of_leads h

theorem trails_inside (h : x.trails inside = true) : x.trails true = true :=
  Bool.and_eq_true_iff.2 ⟨(Bool.and_eq_true_iff.1 h).1, rfl⟩

/-- Most words ask for nothing in the parentheses after them. -/
theorem listFilled_of_plain {w : String} (hw : w ∉ listWords ∧ w ≠ "IF") (y : Contour) :
    ListFilled (word w) y := by
  cases y with
  | enclosed delimiters body =>
      cases delimiters with
      | parens => exact ⟨fun hlist => absurd hlist hw.1, fun hif => absurd hif hw.2⟩
      | cases => trivial
  | _ => trivial

/-- What asks for nothing may stand before what may stand first. -/
theorem beside_of_trails (hx : x.trails inside = true) (hy : y.leads inside = true) :
    Beside x y where
  body h := by rw [not_pending hx (by decide)] at h; cases h
  operand h := by rw [connective_of_leads hy] at h; cases h
  list := by
    cases x with
    | word w =>
        have hlist : (word w).isOneOf listWords = false := not_pending hx (by decide)
        have hif : (word w).isOneOf ["IF"] = false := not_pending hx (by decide)
        refine listFilled_of_plain ⟨fun hw => ?_, fun hw => ?_⟩ y
        · rw [isOneOf, List.contains_iff_mem.2 hw] at hlist
          cases hlist
        · simp [isOneOf, hw] at hif
    | _ => trivial

/-- What is no end may stand after a word that a body follows. -/
theorem beside_of_not_stop (hy : y.isStop = false) (hlist : ListFilled x y) : Beside x y where
  body _ := hy
  operand h := by rw [isStop_of_connective h] at hy; cases hy
  list := hlist

/-- What may stand last may stand before any word. -/
theorem beside_word (hx : x.trails false = true) (w : String) : Beside x (.word w) where
  body h := by rw [not_pending hx (by decide)] at h; cases h
  operand _ := ⟨isStop_of_trails hx, not_pending hx (by decide)⟩
  list := by cases x <;> trivial

end Contour

/-- A part of a text that is not blank where it must not be, and that can stand beside others: at
depth zero, or inside delimiters. -/
structure Joinable (inside : Bool) (xs : List Contour) : Prop where
  head : ∀ x ∈ xs.head?, x.leads inside = true
  chain : xs.IsChain Contour.Beside
  last : ∀ x ∈ xs.getLast?, x.trails inside = true
  whole : WholeAll xs

namespace Joinable

variable {inside : Bool} {xs ys : List Contour}

theorem nil : Joinable inside [] :=
  ⟨by simp, .nil, by simp, trivial⟩

theorem single {x : Contour} (hleads : x.leads inside = true) (htrails : x.trails inside = true)
    (hwhole : x.Whole) : Joinable inside [x] :=
  ⟨by simpa, .singleton x, by simpa, hwhole, trivial⟩

theorem toInside (h : Joinable inside xs) : Joinable true xs :=
  ⟨fun x hx => Contour.leads_inside (h.head x hx), h.chain,
    fun x hx => Contour.trails_inside (h.last x hx), h.whole⟩

theorem wholeAll_append (hxs : WholeAll xs) (hys : WholeAll ys) : WholeAll (xs ++ ys) :=
  wholeAll_iff.2 (List.forall_mem_append.2 ⟨wholeAll_iff.1 hxs, wholeAll_iff.1 hys⟩)

theorem append (hxs : Joinable inside xs) (hys : Joinable inside ys) :
    Joinable inside (xs ++ ys) where
  head x hx := by
    rw [List.head?_append, Option.mem_def, Option.or_eq_some_iff] at hx
    obtain hx | ⟨-, hx⟩ := hx
    · exact hxs.head x hx
    · exact hys.head x hx
  chain := hxs.chain.append hys.chain fun x hx y hy =>
    Contour.beside_of_trails (hxs.last x hx) (hys.head y hy)
  last x hx := by
    rw [List.getLast?_append, Option.mem_def, Option.or_eq_some_iff] at hx
    obtain hx | ⟨-, hx⟩ := hx
    · exact hys.last x hx
    · exact hxs.last x hx
  whole := wholeAll_append hxs.whole hys.whole

/-- A part inside delimiters is all there. -/
theorem complete (h : Joinable true xs) : Complete xs where
  head x hx := Contour.connective_of_leads (h.head x hx)
  chain := h.chain
  last x hx := Contour.not_pending (h.last x hx) (by decide)
  whole := h.whole

theorem enclosed (delimiters : Delimiters) (h : Complete xs) :
    Joinable inside [.enclosed delimiters xs] := by
  refine single ?_ ?_ ⟨h.toClosed, h.whole⟩ <;> cases inside <;> rfl

/-! ### Words and what stands after them -/

theorem chain_word {w : String} (hw : w ∉ listWords ∧ w ≠ "IF") (h : Joinable inside xs)
    (hstop : ∀ x ∈ xs.head?, x.isStop = false) : (Contour.word w :: xs).IsChain Contour.Beside :=
  h.chain.cons fun y hy =>
    Contour.beside_of_not_stop (hstop y hy) (Contour.listFilled_of_plain hw y)

theorem last_word (w : String) (h : Joinable inside xs) (hne : xs ≠ []) :
    ∀ x ∈ (Contour.word w :: xs).getLast?, x.trails inside = true := by
  obtain ⟨y, ys, rfl⟩ := List.exists_cons_of_ne_nil hne
  rw [List.getLast?_cons_cons]
  exact h.last

/-- At depth zero nothing ends with what stands first. -/
theorem not_stop (h : Joinable false xs) : ∀ x ∈ xs.head?, x.isStop = false := by
  intro x hx
  simpa [Contour.leads] using h.head x hx

/-- A word with a body after it. -/
theorem bodied {w : String} (hw : w ∉ listWords ∧ w ≠ "IF")
    (hleads : (Contour.word w).leads inside = true) (h : Joinable inside xs) (hne : xs ≠ [])
    (hstop : ∀ x ∈ xs.head?, x.isStop = false) : Joinable inside (.word w :: xs) :=
  ⟨by simpa using hleads, h.chain_word hw hstop, h.last_word w hne, trivial, h.whole⟩

/-- Two operands and a connective between them. -/
theorem connected {w : String} (hw : w ∉ listWords ∧ w ≠ "IF") (hxs : Joinable false xs)
    (hne : xs ≠ []) (hys : Joinable false ys) (hne' : ys ≠ []) :
    Joinable false (xs ++ .word w :: ys) where
  head x hx := by
    rw [List.head?_append_of_ne_nil _ hne] at hx
    exact hxs.head x hx
  chain := by
    refine hxs.chain.append (hys.chain_word hw hys.not_stop) fun x hx y hy => ?_
    cases hy
    exact Contour.beside_word (hxs.last x hx) w
  last x hx := by
    rw [List.getLast?_append_of_ne_nil _ (List.cons_ne_nil _ _)] at hx
    exact hys.last_word w hne' x hx
  whole := wholeAll_append hxs.whole ⟨trivial, hys.whole⟩

/-- A word with a list in parentheses after it. -/
theorem listed {w : String} (hleads : (Contour.word w).leads inside = true)
    (hlist : Contour.ListFilled (.word w) (.enclosed .parens xs)) (h : Complete xs) :
    Joinable inside [.word w, .enclosed .parens xs] where
  head := by simpa using hleads
  chain := (List.IsChain.singleton _).cons fun y hy => by
    cases hy
    exact Contour.beside_of_not_stop rfl hlist
  last x hx := by
    cases hx
    cases inside <;> rfl
  whole := ⟨trivial, ⟨h.toClosed, h.whole⟩, trivial⟩

/-- Operands joined by a connective, none of them blank. -/
theorem intercalate {w : String} (hw : w ∉ listWords ∧ w ≠ "IF") {xss : List (List Contour)}
    (h : ∀ xs ∈ xss, Joinable false xs) (hne : ∀ xs ∈ xss, xs ≠ []) :
    Joinable false ([Contour.word w].intercalate xss)
      ∧ (xss ≠ [] → [Contour.word w].intercalate xss ≠ []) := by
  induction xss with
  | nil => exact ⟨nil, fun hnil => absurd rfl hnil⟩
  | cons xs xss ih =>
      rw [List.forall_mem_cons] at h hne
      cases xss with
      | nil => simpa [List.intercalate] using ⟨h.1, hne.1⟩
      | cons ys xss =>
          obtain ⟨hrest, hrest'⟩ := ih h.2 hne.2
          have hjoined := h.1.connected hw hne.1 hrest (hrest' (List.cons_ne_nil _ _))
          refine ⟨by simpa [List.intercalate] using hjoined, fun _ => ?_⟩
          simp [List.intercalate, hne.1]

end Joinable

/-! ## What has to be there in a text without blanks -/

/-- A part of a text that is not blank where it must not be. -/
structure Inner (xs : List Contour) : Prop where
  chain : xs.IsChain Contour.Beside
  whole : WholeAll xs

theorem Complete.inner {xs : List Contour} (h : Complete xs) : Inner xs :=
  ⟨h.chain, h.whole⟩

namespace Inner

variable {xs ys : List Contour}

theorem left (h : Inner (xs ++ ys)) : Inner xs :=
  ⟨h.chain.left_of_append, wholeAll_iff.2 (List.forall_mem_append.1 (wholeAll_iff.1 h.whole)).1⟩

theorem right (h : Inner (xs ++ ys)) : Inner ys :=
  ⟨h.chain.right_of_append, wholeAll_iff.2 (List.forall_mem_append.1 (wholeAll_iff.1 h.whole)).2⟩

theorem tail {x : Contour} (h : Inner (x :: xs)) : Inner xs :=
  right (show Inner ([x] ++ xs) from h)

theorem enclosed {delimiters : Delimiters} (h : Inner [.enclosed delimiters xs]) : Complete xs :=
  ⟨h.whole.1.1, h.whole.1.2⟩

end Inner

/-- All that stands first in a text has come to its end. -/
def Trailing (xs : List Contour) : Prop :=
  ∀ x ∈ xs.head?, x.isStop = true

namespace Final

variable {xs rest : List Contour}

/-- What stands up to the end of a text, from any place on. -/
theorem right (h : Final (xs ++ rest)) : Final rest where
  chain := h.chain.right_of_append
  last x hx := by
    refine h.last x ?_
    rw [List.getLast?_append, Option.mem_def.1 hx]
    rfl

theorem tail {x : Contour} (h : Final (x :: xs)) : Final xs :=
  right (show Final ([x] ++ xs) from h)

/-- A word that a body follows is not at the end, nor before what ends it. -/
theorem ne_nil {w : String} (hw : (Contour.word w).isOneOf bodyWords = true)
    (h : Final (.word w :: (xs ++ rest))) (hrest : Trailing rest) : xs ≠ [] := by
  rintro rfl
  cases rest with
  | nil =>
      have hword := h.last (.word w) rfl
      rw [hw] at hword
      cases hword
  | cons y rest =>
      have hbeside : Contour.Beside (.word w) y := (List.isChain_cons_cons.1 h.chain).1
      have hstop := hrest y rfl
      rw [hbeside.body hw] at hstop
      cases hstop

/-- **After a word that a body follows there is an operand, and none of the operands is blank.** -/
theorem operands {w v : String} (hw : (Contour.word w).isOneOf bodyWords = true)
    (hv : (Contour.word v).isOneOf ["AND", "OR"] = true) {xss : List (List Contour)}
    (h : Final (.word w :: ([Contour.word v].intercalate xss ++ rest))) (hrest : Trailing rest) :
    xss ≠ [] ∧ ∀ xs ∈ xss, xs ≠ [] := by
  have hvbody : (Contour.word v).isOneOf bodyWords = true :=
    Contour.isOneOf_mono (by decide) hv
  induction xss generalizing w with
  | nil => exact absurd rfl (h.ne_nil hw hrest)
  | cons xs xss ih =>
      refine ⟨List.cons_ne_nil _ _, ?_⟩
      cases xss with
      | nil =>
          rw [List.forall_mem_singleton]
          exact ne_nil hw (by simpa [List.intercalate] using h) hrest
      | cons ys xss =>
          -- what follows is again a word with operands after it
          have hsplit : [Contour.word v].intercalate (xs :: ys :: xss) ++ rest
              = xs ++ (.word v :: ([Contour.word v].intercalate (ys :: xss) ++ rest)) := by
            simp [List.intercalate]
          rw [hsplit] at h
          have htrailing :
              Trailing (.word v :: ([Contour.word v].intercalate (ys :: xss) ++ rest)) := by
            rintro x ⟨⟩
            exact Contour.isStop_of_connective hv
          exact List.forall_mem_cons.2 ⟨h.ne_nil hw htrailing, (ih hvbody h.tail.right).2⟩

end Final

/-- Of several operands in parentheses none is blank. -/
theorem Closed.operands {v : String} (hv : (Contour.word v).isOneOf ["AND", "OR"] = true)
    {xss : List (List Contour)} (h : Closed ([Contour.word v].intercalate xss))
    (hlength : 2 ≤ xss.length) : ∀ xs ∈ xss, xs ≠ [] := by
  obtain ⟨xs, ys, xss, rfl⟩ : ∃ xs ys rest, xss = xs :: ys :: rest := by
    match xss, hlength with
    | xs :: ys :: rest, _ => exact ⟨xs, ys, rest, rfl⟩
  have hsplit : [Contour.word v].intercalate (xs :: ys :: xss)
      = xs ++ (.word v :: ([Contour.word v].intercalate (ys :: xss) ++ [])) := by
    simp [List.intercalate]
  rw [hsplit] at h
  refine List.forall_mem_cons.2 ⟨?_, ?_⟩
  · rintro rfl
    have hhead := h.head (.word v) rfl
    rw [hv] at hhead
    cases hhead
  · have hvbody : (Contour.word v).isOneOf bodyWords = true :=
      Contour.isOneOf_mono (by decide) hv
    exact (h.toFinal.right.operands hvbody hv (by simp [Trailing])).2

end QueryTree
