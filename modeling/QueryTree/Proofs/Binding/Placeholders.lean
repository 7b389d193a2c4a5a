import QueryTree.Proofs.Binding.Trace
import QueryTree.Proofs.Lexing.Tidy

/-!
# Placeholders in a text

The placeholders that a reader finds in a text are those of the calls in its trace, and filling
them with values gives the text in which the values were written out from the start.

* `Call.atom`: the placeholder of a call.
* `filter_isPlaceholder_atomsOf`: the placeholders in a text are those of its calls.
* `Atom.fill`: a text with values in the place of its placeholders.
* `Fragment.inline`: a fragment with its values written out where they stand.
* `Traces.fill_eq_inline`: filling in the order of the text is writing out.
-/

namespace QueryTree

variable {dialect : Dialect}

/-! ## Placeholders of calls -/

/-- The placeholder of a call. -/
def Call.atom (dialect : Dialect) (c : Call) : Atom :=
  if c.value.isIdentifier then .doubleQuestion
  else if dialect.isPositional then .question
  else .numbered c.number

theorem Call.isPlaceholder_atom (c : Call) : (c.atom dialect).isPlaceholder = true := by
  unfold Call.atom
  split
  · rfl
  · split <;> rfl

theorem Call.atom_beq_doubleQuestion (c : Call) :
    (c.atom dialect == .doubleQuestion) = c.value.isIdentifier := by
  unfold Call.atom
  cases hv : c.value.isIdentifier with
  | true => rfl
  | false => cases hd : dialect.isPositional <;> rfl

theorem Mark.Genuine.atom_some {t : Lexeme} {c : Call} (h : (⟨t, some c⟩ : Mark).Genuine)
    (next : Option Lexeme) : t.atom dialect next = c.atom dialect := by
  obtain rfl : t = if c.value.isIdentifier then .nameSlot else .slot c.number := h
  unfold Call.atom
  split <;> rfl

theorem Mark.Genuine.atom_none {t : Lexeme} (h : (⟨t, none⟩ : Mark).Genuine)
    (next : Option Lexeme) : (t.atom dialect next).isPlaceholder = false := by
  obtain ⟨hslot, hname⟩ := h
  cases t with
  | slot index => exact absurd rfl (hslot index)
  | nameSlot => exact absurd rfl hname
  | word w =>
      simp only [Lexeme.atom]
      split <;> rfl
  | _ => rfl

/-- **The placeholders in a text are those of its calls, from left to right.** -/
theorem filter_isPlaceholder_atomsOf {marks : List Mark} (h : ∀ m ∈ marks, m.Genuine) :
    (atomsOf dialect (marks.map Mark.lexeme)).filter Atom.isPlaceholder
      = (placed marks).map (Call.atom dialect) := by
  induction marks with
  | nil => rfl
  | cons m marks ih =>
      have hm := h m (by simp)
      have ih := ih fun m' hm' => h m' (by simp [hm'])
      obtain ⟨t, call?⟩ := m
      cases call? with
      | some c =>
          rw [List.map_cons, atomsOf, hm.atom_some,
            List.filter_cons_of_pos c.isPlaceholder_atom, ih]
          rfl
      | none =>
          rw [List.map_cons, atomsOf, List.filter_cons_of_neg (by simp [hm.atom_none]), ih]
          rfl

/-! ## Filling and writing out -/

/-- A text with values in the place of its placeholders, in the order of both; `none` if their
numbers differ. -/
def Atom.fill (dialect : Dialect) (spell : Value → String) :
    List Atom → List Value → Option String
  | [], [] => some ""
  | [], _ :: _ => none
  | a :: rest, values =>
    if a.isPlaceholder then do
      return spell (← values.head?) ++ (← fill dialect spell rest values.tail)
    else do
      return a.text dialect ++ (← fill dialect spell rest values)

/-- A fragment with its values written out where they stand. -/
def Fragment.inline (dialect : Dialect) (spell : Value → String) : Fragment → String
  | .empty | .mode _ | .fail _ => ""
  | .token t => t.text dialect
  | .value v => spell v
  | .secret s => spell (.text s)
  | .path p =>
    if dialect.bindsNames then spell (.identifier p)
    else (Lexeme.name (Text.pathParts p)).text dialect
  | .outputName name =>
    if dialect.bindsNames then spell (.text name) else (Lexeme.name [name]).text dialect
  | .enclosed delimiters body =>
    render dialect delimiters.left ++ body.inline dialect spell ++ render dialect delimiters.right
  | .append first second => first.inline dialect spell ++ second.inline dialect spell
  | .crossed left right => left.inline dialect spell ++ right.inline dialect spell
  | .led v body => spell v ++ body.inline dialect spell

/-- What a mark stands for once the values are there. -/
def Mark.filled (dialect : Dialect) (spell : Value → String) (m : Mark) : String :=
  match m.call? with
  | some c => spell c.value
  | none => m.lexeme.text dialect

variable {spell : Value → String}

theorem filled_fixed (ts : List Lexeme) :
    String.join ((fixed ts).map (Mark.filled dialect spell)) = render dialect ts := by
  simp [fixed, render, Function.comp_def, Mark.filled]

/-- Writing out goes through the marks of a trace. -/
theorem Traces.inline_eq {f : Fragment} {n : Nat} {mode mode' : Option Cipher.Mode}
    {marks : List Mark} {stored : List Call} (h : Traces dialect f n mode marks stored mode') :
    f.inline dialect spell = String.join (marks.map (Mark.filled dialect spell)) := by
  induction h with
  | enclosed _ ih => simp [Fragment.inline, ih, filled_fixed, String.append_assoc]
  | append _ _ ihf ihg => simp [Fragment.inline, ihf, ihg]
  | crossed _ _ ihr ihl => simp [Fragment.inline, ihr, ihl]
  | led _ ih => simp [Fragment.inline, ih, Mark.filled]
  | _ => simp_all [Fragment.inline, Mark.filled]

theorem fill_atomsOf {marks : List Mark} (h : ∀ m ∈ marks, m.Genuine)
    (htidy : Tidy dialect (marks.map Mark.lexeme)) :
    Atom.fill dialect spell (atomsOf dialect (marks.map Mark.lexeme))
        ((placed marks).map Call.value)
      = some (String.join (marks.map (Mark.filled dialect spell))) := by
  induction marks with
  | nil => rfl
  | cons m marks ih =>
      have hm := h m (by simp)
      have ih := ih (fun m' hm' => h m' (by simp [hm'])) htidy.2
      obtain ⟨t, call?⟩ := m
      cases call? with
      | some c =>
          have hplaced : placed (⟨t, some c⟩ :: marks) = c :: placed marks := rfl
          rw [List.map_cons, atomsOf, hm.atom_some, hplaced, Atom.fill,
            if_pos c.isPlaceholder_atom]
          simp [ih, Mark.filled]
      | none =>
          have hplaced : placed (⟨t, none⟩ :: marks) = placed marks := rfl
          have htext := text_atom htidy.1
          rw [List.map_cons, atomsOf, hplaced, Atom.fill, if_neg (by simp [hm.atom_none]), ih]
          simpa [Mark.filled] using htext

/-- **Filling the placeholders in the order of the text is writing the values out.** -/
theorem Traces.fill_eq_inline {f : Fragment} {n : Nat} {mode mode' : Option Cipher.Mode}
    {marks : List Mark} {stored : List Call} (h : Traces dialect f n mode marks stored mode')
    (hf : f.Plain dialect) (htidy : Tidy dialect (marks.map Mark.lexeme)) :
    Atom.fill dialect spell (atomsOf dialect (marks.map Mark.lexeme))
        ((placed marks).map Call.value)
      = some (f.inline dialect spell) := by
  rw [fill_atomsOf (h.genuine hf) htidy, h.inline_eq]

end QueryTree
