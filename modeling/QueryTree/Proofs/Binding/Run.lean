import QueryTree.Sql.Fragment

/-!
# Successful bindings

What a fragment writes when it is bound without an error, constructor by constructor, and what
its leaves may hold.

* `run_append_ok`, `run_enclosed_ok`, `run_crossed_ok`, `run_led_ok`: a compound fragment is
  bound exactly if its parts are.
* `Fragment.Plain`: no fixed lexeme is a placeholder, no plain value is an identifier, and only
  one dialect binds a value in front of others.
* `Bindings.Visits`: the bindings passed through on the way, errors or not;
  `Bindings.Visits.counted` says that the index is the number of values in all of them.
-/

namespace QueryTree

namespace Fragment

variable {dialect : Dialect}

/-! ## Compound fragments -/

theorem run_append_ok {f g : Fragment} {b b' : Bindings} {ts : List Lexeme} :
    (append f g).run dialect b = (.ok ts, b') ↔
      ∃ ts₁ b₁ ts₂, f.run dialect b = (.ok ts₁, b₁) ∧ g.run dialect b₁ = (.ok ts₂, b')
        ∧ ts = ts₁ ++ ts₂ := by
  rw [run]
  constructor
  · intro h
    split at h
    · simp at h
    · rename_i ts₁ b₁ hf
      split at h
      · rename_i ts₂ b₂ hg
        simp only [Prod.mk.injEq, Except.ok.injEq] at h
        obtain ⟨rfl, rfl⟩ := h
        exact ⟨ts₁, b₁, ts₂, hf, hg, rfl⟩
      · simp at h
  · rintro ⟨ts₁, b₁, ts₂, hf, hg, rfl⟩
    rw [hf]
    simp [hg]

theorem run_enclosed_ok {delimiters : Delimiters} {f : Fragment} {b b' : Bindings}
    {ts : List Lexeme} :
    (enclosed delimiters f).run dialect b = (.ok ts, b') ↔
      ∃ us, f.run dialect b = (.ok us, b')
        ∧ ts = delimiters.left ++ us ++ delimiters.right := by
  rw [run]
  constructor
  · intro h
    split at h
    · rename_i us b₁ hf
      simp only [Prod.mk.injEq, Except.ok.injEq] at h
      obtain ⟨rfl, rfl⟩ := h
      exact ⟨us, hf, rfl⟩
    · simp at h
  · rintro ⟨us, hf, rfl⟩
    rw [hf]

theorem run_crossed_ok {left right : Fragment} {b b' : Bindings} {ts : List Lexeme} :
    (crossed left right).run dialect b = (.ok ts, b') ↔
      ∃ us b₁ ls, right.run dialect b = (.ok us, b₁) ∧ left.run dialect b₁ = (.ok ls, b')
        ∧ ts = ls ++ us := by
  rw [run]
  constructor
  · intro h
    split at h
    · simp at h
    · rename_i us b₁ hright
      split at h
      · rename_i ls b₂ hleft
        simp only [Prod.mk.injEq, Except.ok.injEq] at h
        obtain ⟨rfl, rfl⟩ := h
        exact ⟨us, b₁, ls, hright, hleft, rfl⟩
      · simp at h
  · rintro ⟨us, b₁, ls, hright, hleft, rfl⟩
    rw [hright]
    simp [hleft]

theorem run_led_ok {v : Value} {f : Fragment} {b b' : Bindings} {ts : List Lexeme} :
    (led v f).run dialect b = (.ok ts, b') ↔
      ∃ us b₁, f.run dialect b = (.ok us, b₁)
        ∧ ts = .slot (b₁.index + 1) :: us ∧ b' = (b₁.insert b.count v).2 := by
  rw [run]
  constructor
  · intro h
    split at h
    · simp at h
    · rename_i us b₁ hf
      simp only [Bindings.insert, Prod.mk.injEq, Except.ok.injEq] at h
      obtain ⟨rfl, rfl⟩ := h
      exact ⟨us, b₁, hf, rfl, rfl⟩
  · rintro ⟨us, b₁, hf, rfl, rfl⟩
    rw [hf]
    rfl

theorem run_mode_ok {m : Cipher.Mode} {b b' : Bindings} {ts : List Lexeme} :
    (mode m).run dialect b = (.ok ts, b') ↔ b.require m = .ok b' ∧ ts = [] := by
  rw [run]
  constructor
  · intro h
    split at h
    · rename_i b₁ hmode
      simp only [Prod.mk.injEq, Except.ok.injEq] at h
      obtain ⟨rfl, rfl⟩ := h
      exact ⟨hmode, rfl⟩
    · simp at h
  · rintro ⟨hmode, rfl⟩
    rw [hmode]

@[simp] theorem run_tokens (ts : List Lexeme) (b : Bindings) :
    (tokens ts).run dialect b = (.ok ts, b) := by
  induction ts with
  | nil => rfl
  | cons t ts ih => exact run_append_ok.2 ⟨[t], b, ts, rfl, ih, rfl⟩

/-- A fragment that ends in an error is never bound. -/
theorem run_append_fail_ne_ok (f : Fragment) (e : CompileError) {b b' : Bindings}
    {ts : List Lexeme} : (append f (fail e)).run dialect b ≠ (.ok ts, b') := by
  intro h
  obtain ⟨ts₁, b₁, ts₂, -, hfail, -⟩ := run_append_ok.1 h
  simp [run] at hfail

/-! ## Leaves -/

/-- No fixed lexeme is a placeholder, no plain value is an identifier, and what only one dialect
does is found in no other. -/
def Plain (dialect : Dialect) : Fragment → Prop
  | .token t => (∀ index, t ≠ .slot index) ∧ t ≠ .nameSlot
  | .value v => v.isIdentifier = false
  | .mode _ => dialect = .mysql
  | .enclosed _ body => body.Plain dialect
  | .append first second => first.Plain dialect ∧ second.Plain dialect
  | .crossed left right => left.Plain dialect ∧ right.Plain dialect
  | .led v body => dialect = .sqlite ∧ v.isIdentifier = false ∧ body.Plain dialect
  | .empty | .secret _ | .path _ | .outputName _ | .fail _ => True

end Fragment

/-! ## The course of a binding -/

/-- `Visits dialect f b c`: while `f` is bound after `b`, what is bound at some point is `c`. -/
inductive Bindings.Visits (dialect : Dialect) : Fragment → Bindings → Bindings → Prop
  | start (f : Fragment) (b : Bindings) : Visits dialect f b b
  | finish (f : Fragment) (b : Bindings) : Visits dialect f b (f.run dialect b).2
  | enclosed {delimiters : Delimiters} {body : Fragment} {b c : Bindings} :
      Visits dialect body b c → Visits dialect (.enclosed delimiters body) b c
  | first {first second : Fragment} {b c : Bindings} :
      Visits dialect first b c → Visits dialect (.append first second) b c
  | second {first second : Fragment} {b b₁ c : Bindings} {ts : List Lexeme} :
      first.run dialect b = (.ok ts, b₁) → Visits dialect second b₁ c →
      Visits dialect (.append first second) b c
  | right {left right : Fragment} {b c : Bindings} :
      Visits dialect right b c → Visits dialect (.crossed left right) b c
  | left {left right : Fragment} {b b₁ c : Bindings} {ts : List Lexeme} :
      right.run dialect b = (.ok ts, b₁) → Visits dialect left b₁ c →
      Visits dialect (.crossed left right) b c
  | body {v : Value} {body : Fragment} {b c : Bindings} :
      Visits dialect body b c → Visits dialect (.led v body) b c

/-- The index is the number of values. -/
def Bindings.Counted (b : Bindings) : Prop :=
  b.index = b.values.length

namespace Bindings

variable {dialect : Dialect}

theorem Counted.value {b : Bindings} (h : b.Counted) (v : Value) : (b.value v).2.Counted := by
  simpa [Counted, Bindings.value] using h

theorem Counted.identifier {b : Bindings} (h : b.Counted) (path : String) :
    (b.identifier dialect path).2.Counted := by
  unfold Bindings.identifier
  split
  · simpa [Counted] using h
  · exact h

theorem Counted.outputName {b : Bindings} (h : b.Counted) (name : String) :
    (b.outputName dialect name).2.Counted := by
  unfold Bindings.outputName
  split
  · exact h.value _
  · exact h

theorem Counted.insert {b : Bindings} (h : b.Counted) (mark : Nat) (v : Value) :
    (b.insert mark v).2.Counted := by
  have hlen : (b.values.take mark).length + (b.values.drop mark).length = b.values.length := by
    rw [← List.length_append, List.take_append_drop]
  simp only [Counted] at h
  simp only [Counted, Bindings.insert, List.length_append, List.length_cons]
  omega

theorem Counted.require {b b' : Bindings} {m : Cipher.Mode} (h : b.Counted)
    (hb : b.require m = .ok b') : b'.Counted := by
  unfold Bindings.require at hb
  split at hb
  · split at hb
    · cases hb
      exact h
    · cases hb
  · cases hb
    exact h

/-- Binding keeps the index in step with the values, with an error or without. -/
theorem Counted.run {b : Bindings} (h : b.Counted) (f : Fragment) :
    (f.run dialect b).2.Counted := by
  induction f generalizing b with
  | empty => exact h
  | token t => exact h
  | value v => exact h.value v
  | secret s => exact h.value _
  | path p => exact h.identifier p
  | outputName name => exact h.outputName name
  | mode m =>
      rw [Fragment.run]
      split
      · rename_i b' hb
        exact h.require hb
      · exact h
  | fail e => exact h
  | enclosed delimiters body ih =>
      have hbody := ih h
      rw [Fragment.run]
      split <;> simp_all
  | append first second ihf ihs =>
      have hfirst := ihf h
      rw [Fragment.run]
      split
      · simp_all
      · rename_i ts b₁ hf
        rw [hf] at hfirst
        have hsecond := ihs hfirst
        split <;> simp_all
  | crossed left right ihl ihr =>
      have hright := ihr h
      rw [Fragment.run]
      split
      · simp_all
      · rename_i ts b₁ hr
        rw [hr] at hright
        have hleft := ihl hright
        split <;> simp_all
  | led v body ih =>
      have hbody := ih h
      rw [Fragment.run]
      split
      · simp_all
      · rename_i ts b₁ hb
        rw [hb] at hbody
        exact hbody.insert _ v

theorem Counted.of_run {f : Fragment} {b b' : Bindings} {r : Except CompileError (List Lexeme)}
    (h : b.Counted) (hrun : f.run dialect b = (r, b')) : b'.Counted := by
  have hfinal : (f.run dialect b).2.Counted := h.run f
  rwa [hrun] at hfinal

/-- **The index is the number of values at every point of a binding.** -/
theorem Visits.counted {f : Fragment} {b c : Bindings} (h : Visits dialect f b c)
    (hb : b.Counted) : c.Counted := by
  induction h with
  | start f b => exact hb
  | finish f b => exact hb.run f
  | enclosed _ ih => exact ih hb
  | first _ ih => exact ih hb
  | second hrun _ ih => exact ih (hb.of_run hrun)
  | right _ ih => exact ih hb
  | left hrun _ ih => exact ih (hb.of_run hrun)
  | body _ ih => exact ih hb

end Bindings

end QueryTree
