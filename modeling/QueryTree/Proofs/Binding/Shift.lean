import QueryTree.Proofs.Binding.Run
import QueryTree.Proofs.Lexing.Tidy

/-!
# Bindings after other bindings

What was bound before changes nothing but the numbers of the placeholders.

* `Bindings.after`: bindings with others in front of them.
* `Lexeme.shift`, `Atom.shift`: numbers moved on by an offset.
* `Fragment.run_after`: binding after others is binding from nothing, moved on.
* `renumber?`: the text of a statement with its numbers moved on; `renumber?_render` says what
  that does to a tidy text.
-/

namespace QueryTree

/-- Bindings with others in front of them. -/
def Bindings.after (b earlier : Bindings) : Bindings :=
  ⟨earlier.index + b.index, earlier.values ++ b.values, b.mode⟩

/-- A lexeme with its number moved on. -/
def Lexeme.shift (offset : Nat) : Lexeme → Lexeme
  | .slot index => .slot (index + offset)
  | t => t

/-- A unit of a text with its number moved on. -/
def Atom.shift (offset : Nat) : Atom → Atom
  | .numbered k => .numbered (k + offset)
  | a => a

variable {dialect : Dialect}

/-! ## Operations -/

theorem Bindings.value_after (b earlier : Bindings) (v : Value) :
    (b.after earlier).value v
      = ((b.value v).1.shift earlier.index, (b.value v).2.after earlier) := by
  simp only [Bindings.value, Bindings.after, Lexeme.shift, List.append_assoc, Prod.mk.injEq,
    Lexeme.slot.injEq, Bindings.mk.injEq, and_true]
  omega

theorem Bindings.identifier_after (b earlier : Bindings) (p : String) :
    (b.after earlier).identifier dialect p
      = ((b.identifier dialect p).1.shift earlier.index,
        (b.identifier dialect p).2.after earlier) := by
  unfold Bindings.identifier
  split <;> simp [Bindings.after, Lexeme.shift, Nat.add_assoc]

theorem Bindings.outputName_after (b earlier : Bindings) (name : String) :
    (b.after earlier).outputName dialect name
      = ((b.outputName dialect name).1.shift earlier.index,
        (b.outputName dialect name).2.after earlier) := by
  unfold Bindings.outputName
  split
  · exact b.value_after earlier _
  · rfl

theorem Bindings.insert_after (b earlier : Bindings) (mark : Nat) (v : Value) :
    (b.after earlier).insert (earlier.count + mark) v
      = ((b.insert mark v).1.shift earlier.index, (b.insert mark v).2.after earlier) := by
  simp only [Bindings.insert, Bindings.after, Bindings.count, Lexeme.shift, Prod.mk.injEq,
    Lexeme.slot.injEq, Bindings.mk.injEq, List.take_length_add_append,
    List.drop_length_add_append, List.append_assoc, and_true]
  omega

theorem Bindings.require_after (b earlier : Bindings) (m : Cipher.Mode) :
    (b.after earlier).require m = (b.require m).map (·.after earlier) := by
  unfold Bindings.require
  simp only [Bindings.after]
  split
  · split <;> rfl
  · rfl

theorem Bindings.count_after (b earlier : Bindings) :
    (b.after earlier).count = earlier.count + b.count := by
  simp [Bindings.count, Bindings.after]

/-! ## Fragments -/

namespace Fragment

/-- The outcome of a binding after others. -/
def Outcome.after (r : Outcome) (earlier : Bindings) : Outcome :=
  (r.1.map (List.map (Lexeme.shift earlier.index)), r.2.after earlier)

theorem single_after (r : Lexeme × Bindings) (earlier : Bindings) :
    single (r.1.shift earlier.index, r.2.after earlier) = (single r).after earlier :=
  rfl

theorem map_shift_left (delimiters : Delimiters) (offset : Nat) :
    delimiters.left.map (Lexeme.shift offset) = delimiters.left := by
  cases delimiters <;> rfl

theorem map_shift_right (delimiters : Delimiters) (offset : Nat) :
    delimiters.right.map (Lexeme.shift offset) = delimiters.right := by
  cases delimiters <;> rfl

/-- **Binding after others is binding from nothing, moved on.** -/
theorem run_after {f : Fragment} (hf : f.Plain dialect) (b earlier : Bindings) :
    f.run dialect (b.after earlier) = (f.run dialect b).after earlier := by
  induction f generalizing b with
  | empty => rfl
  | token t =>
      cases t with
      | slot index => exact absurd rfl (hf.1 index)
      | _ => rfl
  | value v => rw [run, b.value_after earlier v, single_after, run]
  | secret s => rw [run, b.value_after earlier _, single_after, run]
  | path p => rw [run, b.identifier_after earlier p, single_after, run]
  | outputName name => rw [run, b.outputName_after earlier name, single_after, run]
  | mode m =>
      rw [run, run, b.require_after earlier m]
      cases b.require m <;> rfl
  | fail e => rfl
  | enclosed delimiters body ih =>
      rw [run, run, ih hf]
      obtain ⟨r, b₁⟩ := body.run dialect b
      cases r with
      | error e => rfl
      | ok ts =>
          simp [Outcome.after, Except.map, map_shift_left, map_shift_right]
  | append first second ihf ihs =>
      rw [run, run, ihf hf.1]
      obtain ⟨r, b₁⟩ := first.run dialect b
      cases r with
      | error e => rfl
      | ok ts =>
          simp only [Outcome.after, Except.map, ihs hf.2]
          obtain ⟨r, b₂⟩ := second.run dialect b₁
          cases r <;> simp
  | crossed left right ihl ihr =>
      rw [run, run, ihr hf.2]
      obtain ⟨r, b₁⟩ := right.run dialect b
      cases r with
      | error e => rfl
      | ok ts =>
          simp only [Outcome.after, Except.map, ihl hf.1]
          obtain ⟨r, b₂⟩ := left.run dialect b₁
          cases r <;> simp
  | led v body ih =>
      rw [run, run, ih hf.2.2]
      obtain ⟨r, b₁⟩ := body.run dialect b
      cases r with
      | error e => rfl
      | ok ts =>
          simp only [Outcome.after, Except.map, b.count_after, b₁.insert_after]
          simp

end Fragment

/-! ## Texts -/

/-- The text of a statement with the numbers of its placeholders moved on; `none` if it cannot be
read. -/
def renumber? (dialect : Dialect) (offset : Nat) (sql : String) : Option String :=
  (atoms? dialect sql).map fun atoms => Atom.textOf dialect (atoms.map (Atom.shift offset))

theorem Lexeme.map_shift_eq_some_iff {next : Option Lexeme} {u : Lexeme} {offset : Nat}
    (hu : ∀ index, u ≠ .slot index) :
    next.map (Lexeme.shift offset) = some u ↔ next = some u := by
  cases next with
  | none => simp
  | some t =>
      cases t with
      | slot index =>
          have hne : ∀ k, Lexeme.slot k ≠ u := fun k => (hu k).symm
          simp [Lexeme.shift, hne]
      | _ => simp [Lexeme.shift]

theorem Lexeme.Clear.shift {next : Option Lexeme} (h : Lexeme.Clear next) (offset : Nat) :
    Lexeme.Clear (next.map (Lexeme.shift offset)) := by
  cases next with
  | none => exact h
  | some t =>
      intro u hu
      obtain rfl : t.shift offset = u := by simpa using hu
      have ht := h t rfl
      cases t <;> simp_all [Lexeme.isPunctuation, Lexeme.shift]

theorem Lexeme.Fits.shift {t : Lexeme} {next : Option Lexeme} (h : t.Fits dialect next)
    (offset : Nat) : (t.shift offset).Fits dialect (next.map (Lexeme.shift offset)) := by
  cases t with
  | word w =>
      have hiff : next.map (Lexeme.shift offset) = some .opening ↔ next = some .opening :=
        Lexeme.map_shift_eq_some_iff (by simp)
      simp only [Lexeme.shift, Lexeme.Fits, hiff] at h ⊢
      split
      · next hopening => rwa [if_pos hopening] at h
      · next hopening =>
          rw [if_neg hopening] at h
          exact ⟨h.1, h.2.shift offset⟩
  | literal s => exact ⟨h.1, h.2.shift offset⟩
  | name parts =>
      refine ⟨h.1, ?_⟩
      rw [Lexeme.map_shift_eq_some_iff (by simp)]
      exact h.2.imp (fun hclear => hclear.shift offset) id
  | slot index => exact Lexeme.Clear.shift h offset
  | nameSlot => exact ⟨h.1, h.2.shift offset⟩
  | _ => trivial

theorem Lexeme.atom_shift (t : Lexeme) (next : Option Lexeme) (offset : Nat) :
    (t.shift offset).atom dialect (next.map (Lexeme.shift offset))
      = (t.atom dialect next).shift offset := by
  cases t with
  | word w =>
      have hiff : next.map (Lexeme.shift offset) = some .opening ↔ next = some .opening :=
        Lexeme.map_shift_eq_some_iff (by simp)
      simp only [Lexeme.shift, Lexeme.atom, hiff]
      split <;> rfl
  | slot index =>
      simp only [Lexeme.shift, Lexeme.atom]
      split <;> rfl
  | _ => rfl

theorem Tidy.shift {ts : List Lexeme} (h : Tidy dialect ts) (offset : Nat) :
    Tidy dialect (ts.map (Lexeme.shift offset)) := by
  induction ts with
  | nil => trivial
  | cons t ts ih =>
      refine ⟨?_, ih h.2⟩
      rw [List.head?_map]
      exact h.1.shift offset

theorem atomsOf_shift (ts : List Lexeme) (offset : Nat) :
    atomsOf dialect (ts.map (Lexeme.shift offset))
      = (atomsOf dialect ts).map (Atom.shift offset) := by
  induction ts with
  | nil => rfl
  | cons t ts ih =>
      simp only [List.map_cons, atomsOf, ih, List.head?_map, Lexeme.atom_shift]

/-- **The numbers of a tidy text are those of its lexemes.** -/
theorem renumber?_render {ts : List Lexeme} (h : Tidy dialect ts) (offset : Nat) :
    renumber? dialect offset (render dialect ts)
      = some (render dialect (ts.map (Lexeme.shift offset))) := by
  rw [renumber?, atoms?_render h, Option.map_some, ← atomsOf_shift, textOf_atomsOf (h.shift offset)]

/-- Where placeholders have no numbers, moving them on changes nothing. -/
theorem render_shift (hd : dialect.isPositional = true) (ts : List Lexeme) (offset : Nat) :
    render dialect (ts.map (Lexeme.shift offset)) = render dialect ts := by
  have htext : ∀ t : Lexeme, (t.shift offset).text dialect = t.text dialect := by
    intro t
    cases t with
    | slot index => cases dialect <;> first | rfl | cases hd
    | _ => rfl
  simp [render, Function.comp_def, htext]

end QueryTree
