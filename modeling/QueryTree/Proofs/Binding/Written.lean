import Mathlib.Data.List.Forall2
import QueryTree.Proofs.Binding.Content

/-!
# What fragments may write

The lexemes that a fragment writes after some bindings, whichever they are.

* `Fragment.Writes`: a fragment writes lexemes when it is bound at some place.
* `Fragment.Writes.append`, `Fragment.Writes.enclosed`, `Fragment.Writes.join`: what compound
  fragments write is made of what their parts write.
* `Fragment.sql_ok`, `Fragment.sql_error_iff`: the text of a fragment is that of the lexemes it
  writes, and its errors are those of the binding.
* `Fragment.values_of_sql`: the values that a written fragment has added.
-/

namespace QueryTree

namespace Fragment

variable {dialect : Dialect}

/-- Bound at some place, the fragment writes the lexemes. -/
def Writes (dialect : Dialect) (f : Fragment) (ts : List Lexeme) : Prop :=
  ∃ b b', f.run dialect b = (.ok ts, b')

/-- The text of a fragment is that of the lexemes it writes. -/
theorem sql_ok {f : Fragment} {b b' : Bindings} {text : String} :
    f.sql dialect b = (.ok text, b') ↔
      ∃ ts, f.run dialect b = (.ok ts, b') ∧ text = render dialect ts := by
  unfold sql
  constructor
  · intro h
    split at h
    · next ts b₁ hrun =>
        simp only [Prod.mk.injEq, Except.ok.injEq] at h
        obtain ⟨rfl, rfl⟩ := h
        exact ⟨ts, hrun, rfl⟩
    · simp at h
  · rintro ⟨ts, hrun, rfl⟩
    rw [hrun]

theorem sql_error_iff {f : Fragment} {b : Bindings} {e : CompileError} :
    (f.sql dialect b).1 = .error e ↔ (f.run dialect b).1 = .error e := by
  unfold sql
  split
  · next hrun => simp [hrun]
  · next hrun => simp [hrun]

theorem Plain.hurdles_of_sql {f : Fragment} {b b' : Bindings} (hf : f.Plain dialect)
    (hd : dialect ≠ .mysql) {text : String} (h : f.sql dialect b = (.ok text, b')) :
    f.hurdles = [] := by
  obtain ⟨ts, hrun, -⟩ := sql_ok.1 h
  exact hf.hurdles_of_run hd hrun

theorem values_of_sql {f : Fragment} {b b' : Bindings} {text : String}
    (h : f.sql dialect b = (.ok text, b')) :
    b'.values = b.values ++ (f.stored dialect).map Stored.value := by
  obtain ⟨ts, hrun, -⟩ := sql_ok.1 h
  obtain ⟨mode, -, -, rfl⟩ := run_ok_iff.1 hrun
  rfl

namespace Writes

theorem fail {e : CompileError} {ts : List Lexeme} : ¬ Writes dialect (.fail e) ts := by
  rintro ⟨b, b', h⟩
  simp [run] at h

theorem token {t : Lexeme} {ts : List Lexeme} (h : Writes dialect (.token t) ts) : ts = [t] := by
  obtain ⟨b, b', h⟩ := h
  cases h
  rfl

theorem tokens {us ts : List Lexeme} (h : Writes dialect (tokens us) ts) : ts = us := by
  obtain ⟨b, b', h⟩ := h
  rw [run_tokens] at h
  cases h
  rfl

theorem append {f g : Fragment} {ts : List Lexeme} (h : Writes dialect (f ++ g) ts) :
    ∃ us vs, Writes dialect f us ∧ Writes dialect g vs ∧ ts = us ++ vs := by
  obtain ⟨b, b', h⟩ := h
  obtain ⟨us, b₁, vs, hf, hg, rfl⟩ := run_append_ok.1 h
  exact ⟨us, vs, ⟨b, b₁, hf⟩, ⟨b₁, b', hg⟩, rfl⟩

theorem enclosed {delimiters : Delimiters} {f : Fragment} {ts : List Lexeme}
    (h : Writes dialect (.enclosed delimiters f) ts) :
    ∃ us, Writes dialect f us ∧ ts = delimiters.left ++ us ++ delimiters.right := by
  obtain ⟨b, b', h⟩ := h
  obtain ⟨us, hf, rfl⟩ := run_enclosed_ok.1 h
  exact ⟨us, ⟨b, b', hf⟩, rfl⟩

/-- Fragments with a separator between them write their lexemes with the separator between
them. -/
theorem join {separator : List Lexeme} {fs : List Fragment} {ts : List Lexeme}
    (h : Writes dialect (join separator fs) ts) :
    ∃ tss, List.Forall₂ (Writes dialect) fs tss ∧ ts = separator.intercalate tss := by
  induction fs generalizing ts with
  | nil =>
      obtain ⟨b, b', h⟩ := h
      cases h
      exact ⟨[], .nil, rfl⟩
  | cons f fs ih =>
      cases fs with
      | nil => exact ⟨[ts], .cons h .nil, by simp [List.intercalate]⟩
      | cons g fs =>
          obtain ⟨us, vs, hleft, hrest, rfl⟩ := append h
          obtain ⟨us₁, us₂, hf, hseparator, rfl⟩ := append hleft
          obtain rfl := tokens hseparator
          obtain ⟨tss, htss, rfl⟩ := ih hrest
          refine ⟨us₁ :: tss, .cons hf htss, ?_⟩
          cases htss with
          | cons hg hrest => simp [List.intercalate]

end Writes

end Fragment

end QueryTree
