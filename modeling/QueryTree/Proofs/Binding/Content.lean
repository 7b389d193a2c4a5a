import QueryTree.Proofs.Binding.Run

/-!
# What fragments amount to

What binding a fragment can stop at, what it stores and what it writes can be told from the
fragment alone.

* `Hurdle`, `Fragment.hurdles`: errors and block modes, in the order of binding.
* `Stored`, `Fragment.stored`: values in the order of the list, and which of them are key material.
* `Fragment.lexemes`: what is written after a number of values.
* `Fragment.run_or_stop`: binding either gets over all hurdles, and stores and writes just that,
  or ends in the error of the first hurdle that it does not get over; `run_ok_iff` and
  `run_error_iff` say when.
* `Fragment.Plain.hurdles_of_run`: where there are no block modes, what is bound has no hurdles.
-/

namespace QueryTree

/-- What a binding has to get over: an error, or a block mode that is asked for. -/
inductive Hurdle where
  | mode (m : Cipher.Mode)
  | error (e : CompileError)
deriving DecidableEq, Repr

/-- The block mode in force after a hurdle, or the error that it ends in. -/
def Hurdle.pass (mode : Option Cipher.Mode) : Hurdle → Except CompileError (Option Cipher.Mode)
  | .error e => .error e
  | .mode m =>
    match mode with
    | some current =>
      if current = m then .ok (some m)
      else .error (.invalid "encryption.mode" (.modeConflict m current))
    | none => .ok (some m)

/-- The block mode in force after several hurdles. -/
def Hurdle.passAll (mode : Option Cipher.Mode) (hurdles : List Hurdle) :
    Except CompileError (Option Cipher.Mode) :=
  hurdles.foldlM Hurdle.pass mode

theorem Hurdle.passAll_append (mode : Option Cipher.Mode) (hs ks : List Hurdle) :
    Hurdle.passAll mode (hs ++ ks)
      = (Hurdle.passAll mode hs).bind fun mode => Hurdle.passAll mode ks :=
  List.foldlM_append

theorem Hurdle.passAll_singleton (mode : Option Cipher.Mode) (h : Hurdle) :
    Hurdle.passAll mode [h] = h.pass mode := by
  simp [Hurdle.passAll]

theorem Hurdle.passAll_cons (mode : Option Cipher.Mode) (h : Hurdle) (hs : List Hurdle) :
    Hurdle.passAll mode (h :: hs) = (h.pass mode).bind fun mode => Hurdle.passAll mode hs := by
  rw [← List.singleton_append, Hurdle.passAll_append, Hurdle.passAll_singleton]

theorem Hurdle.not_mem_of_passAll {mode mode' : Option Cipher.Mode} {hurdles : List Hurdle}
    (h : Hurdle.passAll mode hurdles = .ok mode') (e : CompileError) : .error e ∉ hurdles := by
  intro he
  obtain ⟨before, after, rfl⟩ := List.append_of_mem he
  rw [Hurdle.passAll_append] at h
  cases hbefore : Hurdle.passAll mode before <;> rw [hbefore] at h <;> cases h

/-- A value that is stored. -/
structure Stored where
  value : Value
  /-- Whether it is key material. -/
  isKey : Bool := false
deriving DecidableEq, Repr

/-- A text that is bound. -/
def Stored.text (s : String) : Stored :=
  { value := .text s }

namespace Fragment

/-- What has to be got over to bind a fragment, in the order of binding. -/
def hurdles : Fragment → List Hurdle
  | .mode m => [.mode m]
  | .fail e => [.error e]
  | .enclosed _ body | .led _ body => body.hurdles
  | .append first second => first.hurdles ++ second.hurdles
  | .crossed left right => right.hurdles ++ left.hurdles
  | .empty | .token _ | .value _ | .secret _ | .path _ | .outputName _ => []

/-- The values of a fragment, in the order in which they are listed. -/
def stored (dialect : Dialect) : Fragment → List Stored
  | .value v => [{ value := v }]
  | .secret s => [{ value := .text s, isKey := true }]
  | .path p => if dialect.bindsNames then [{ value := .identifier p }] else []
  | .outputName name => if dialect.bindsNames then [{ value := .text name }] else []
  | .enclosed _ body => body.stored dialect
  | .append first second => first.stored dialect ++ second.stored dialect
  | .crossed left right => right.stored dialect ++ left.stored dialect
  | .led v body => { value := v } :: body.stored dialect
  | .empty | .token _ | .mode _ | .fail _ => []

/-- What is written for a fragment after `n` values. -/
def lexemes (dialect : Dialect) (n : Nat) : Fragment → List Lexeme
  | .empty | .mode _ | .fail _ => []
  | .token t => [t]
  | .value _ | .secret _ => [.slot (n + 1)]
  | .path p => if dialect.bindsNames then [.nameSlot] else [.name (Text.pathParts p)]
  | .outputName name => if dialect.bindsNames then [.slot (n + 1)] else [.name [name]]
  | .enclosed delimiters body => delimiters.left ++ body.lexemes dialect n ++ delimiters.right
  | .append first second =>
    first.lexemes dialect n ++ second.lexemes dialect (n + (first.stored dialect).length)
  | .crossed left right =>
    left.lexemes dialect (n + (right.stored dialect).length) ++ right.lexemes dialect n
  | .led _ body => .slot (n + (body.stored dialect).length + 1) :: body.lexemes dialect n

/-- Bindings with the values of a fragment after their own, under a block mode. -/
def extend (dialect : Dialect) (f : Fragment) (b : Bindings) (mode : Option Cipher.Mode) :
    Bindings :=
  ⟨b.index + (f.stored dialect).length, b.values ++ (f.stored dialect).map Stored.value, mode⟩

/-- Binding gets over the hurdles of a fragment and stores and writes what it amounts to. -/
def Runs (dialect : Dialect) (f : Fragment) (b : Bindings) (mode : Option Cipher.Mode) : Prop :=
  Hurdle.passAll b.mode f.hurdles = .ok mode
    ∧ f.run dialect b = (.ok (f.lexemes dialect b.index), f.extend dialect b mode)

/-- Binding ends in the error of a hurdle. -/
def Stops (dialect : Dialect) (f : Fragment) (b : Bindings) (e : CompileError) : Prop :=
  Hurdle.passAll b.mode f.hurdles = .error e ∧ (f.run dialect b).1 = .error e

variable {dialect : Dialect}

/-! ## Fragments put together -/

@[simp]
theorem hurdles_append (f g : Fragment) : (f ++ g).hurdles = f.hurdles ++ g.hurdles := rfl

@[simp]
theorem stored_append (f g : Fragment) :
    (f ++ g).stored dialect = f.stored dialect ++ g.stored dialect := rfl

@[simp]
theorem hurdles_word (w : String) : (word w).hurdles = [] := rfl

@[simp]
theorem stored_word (w : String) : (word w).stored dialect = [] := rfl

@[simp]
theorem hurdles_tokens (ts : List Lexeme) : (tokens ts).hurdles = [] := by
  induction ts with
  | nil => rfl
  | cons t ts ih => exact ih

@[simp]
theorem stored_tokens (ts : List Lexeme) : (tokens ts).stored dialect = [] := by
  induction ts with
  | nil => rfl
  | cons t ts ih => exact ih

@[simp]
theorem hurdles_join (separator : List Lexeme) (fs : List Fragment) :
    (join separator fs).hurdles = fs.flatMap hurdles := by
  induction fs with
  | nil => rfl
  | cons f fs ih =>
      cases fs with
      | nil => simp [join]
      | cons g fs => simp [join, ih]

@[simp]
theorem stored_join (separator : List Lexeme) (fs : List Fragment) :
    (join separator fs).stored dialect = fs.flatMap (stored dialect) := by
  induction fs with
  | nil => rfl
  | cons f fs ih =>
      cases fs with
      | nil => simp [join]
      | cons g fs => simp [join, ih]

@[simp]
theorem hurdles_words (ws : List String) : (words ws).hurdles = [] := by
  simp [words, spaced]

@[simp]
theorem stored_words (ws : List String) : (words ws).stored dialect = [] := by
  simp [words, spaced]

@[simp]
theorem hurdles_parens (f : Fragment) : (parens f).hurdles = f.hurdles := rfl

@[simp]
theorem stored_parens (f : Fragment) : (parens f).stored dialect = f.stored dialect := rfl

/-- Only one dialect has block modes. -/
theorem Plain.mode_not_mem {dialect : Dialect} {f : Fragment} (hf : f.Plain dialect)
    (hd : dialect ≠ .mysql) (m : Cipher.Mode) : .mode m ∉ f.hurdles := by
  induction f with
  | mode m' => exact absurd hf hd
  | enclosed delimiters body ih => exact ih hf
  | led v body ih => exact ih hf.2.2
  | append first second ihf ihs =>
      rw [hurdles, List.mem_append, not_or]
      exact ⟨ihf hf.1, ihs hf.2⟩
  | crossed left right ihl ihr =>
      rw [hurdles, List.mem_append, not_or]
      exact ⟨ihr hf.2, ihl hf.1⟩
  | _ => simp [hurdles]

/-! ## Binding -/

/-- Two fragments bound one after the other. -/
theorem runs_or_stops_both {f g : Fragment}
    (hf : ∀ b, (∃ mode, f.Runs dialect b mode) ∨ ∃ e, f.Stops dialect b e)
    (hg : ∀ b, (∃ mode, g.Runs dialect b mode) ∨ ∃ e, g.Stops dialect b e) (b : Bindings) :
    (∃ mode mode', Hurdle.passAll b.mode (f.hurdles ++ g.hurdles) = .ok mode'
        ∧ f.run dialect b = (.ok (f.lexemes dialect b.index), f.extend dialect b mode)
        ∧ g.Runs dialect (f.extend dialect b mode) mode')
      ∨ ∃ e, Hurdle.passAll b.mode (f.hurdles ++ g.hurdles) = .error e
        ∧ ((f.run dialect b).1 = .error e
          ∨ ∃ ts b', f.run dialect b = (.ok ts, b') ∧ (g.run dialect b').1 = .error e) := by
  rw [Hurdle.passAll_append]
  rcases hf b with ⟨mode, hpass, hrun⟩ | ⟨e, hstop, hrun⟩
  · rw [hpass]
    rcases hg (f.extend dialect b mode) with ⟨mode', hruns⟩ | ⟨e, hstop, hrun'⟩
    · exact .inl ⟨mode, mode', hruns.1, hrun, hruns⟩
    · exact .inr ⟨e, hstop, .inr ⟨_, _, hrun, hrun'⟩⟩
  · rw [hstop]
    exact .inr ⟨e, rfl, .inl hrun⟩

/-- **Binding either gets over all hurdles, and stores and writes what the fragment amounts to, or
ends in the error of a hurdle.** -/
theorem run_or_stop (dialect : Dialect) (f : Fragment) (b : Bindings) :
    (∃ mode, f.Runs dialect b mode) ∨ ∃ e, f.Stops dialect b e := by
  induction f generalizing b with
  | empty => exact .inl ⟨b.mode, rfl, by simp [run, lexemes, extend, stored]⟩
  | token t => exact .inl ⟨b.mode, rfl, by simp [run, lexemes, extend, stored]⟩
  | value v =>
      exact .inl ⟨b.mode, rfl, by simp [run, single, Bindings.value, lexemes, extend, stored]⟩
  | secret s =>
      exact .inl ⟨b.mode, rfl, by simp [run, single, Bindings.value, lexemes, extend, stored]⟩
  | path p =>
      refine .inl ⟨b.mode, rfl, ?_⟩
      cases hd : dialect.bindsNames with
      | true => simp [run, single, Bindings.identifier, lexemes, extend, stored, hd]
      | false => simp [run, single, Bindings.identifier, lexemes, extend, stored, hd]
  | outputName name =>
      refine .inl ⟨b.mode, rfl, ?_⟩
      cases hd : dialect.bindsNames with
      | true => simp [run, single, Bindings.outputName, Bindings.value, lexemes, extend, stored, hd]
      | false => simp [run, single, Bindings.outputName, lexemes, extend, stored, hd]
  | mode m =>
      obtain ⟨index, values, mode⟩ := b
      cases mode with
      | none => exact .inl ⟨some m, rfl, by simp [run, Bindings.require, lexemes, extend, stored]⟩
      | some current =>
          by_cases hm : current = m
          · refine .inl ⟨some m, by simp [hurdles, Hurdle.passAll_singleton, Hurdle.pass, hm], ?_⟩
            simp [run, Bindings.require, lexemes, extend, stored, hm]
          · refine .inr ⟨.invalid "encryption.mode" (.modeConflict m current), ?_, ?_⟩
            · simp [hurdles, Hurdle.passAll_singleton, Hurdle.pass, hm]
            · simp [run, Bindings.require, hm]
  | fail e => exact .inr ⟨e, rfl, rfl⟩
  | enclosed delimiters body ih =>
      rcases ih b with ⟨mode, hpass, hrun⟩ | ⟨e, hstop, hrun⟩
      · exact .inl ⟨mode, hpass, by rw [run, hrun]; rfl⟩
      · refine .inr ⟨e, hstop, ?_⟩
        rw [run]
        split <;> simp_all
  | append first second ihf ihs =>
      rcases runs_or_stops_both ihf ihs b with
        ⟨mode, mode', hpass, hfirst, hsecond⟩ | ⟨e, hstop, hrun | ⟨ts, b', hfirst, hrun⟩⟩
      · refine .inl ⟨mode', hpass, ?_⟩
        rw [run, hfirst]
        simp only [hsecond.2]
        simp [lexemes, extend, stored, Nat.add_assoc]
      · refine .inr ⟨e, hstop, ?_⟩
        rw [run]
        split <;> simp_all
      · refine .inr ⟨e, hstop, ?_⟩
        simp only [run, hfirst]
        split <;> simp_all
  | crossed left right ihl ihr =>
      rcases runs_or_stops_both ihr ihl b with
        ⟨mode, mode', hpass, hright, hleft⟩ | ⟨e, hstop, hrun | ⟨ts, b', hright, hrun⟩⟩
      · refine .inl ⟨mode', hpass, ?_⟩
        rw [run, hright]
        simp only [hleft.2]
        simp [lexemes, extend, stored, Nat.add_assoc]
      · refine .inr ⟨e, hstop, ?_⟩
        rw [run]
        split <;> simp_all
      · refine .inr ⟨e, hstop, ?_⟩
        simp only [run, hright]
        split <;> simp_all
  | led v body ih =>
      rcases ih b with ⟨mode, hpass, hrun⟩ | ⟨e, hstop, hrun⟩
      · refine .inl ⟨mode, hpass, ?_⟩
        rw [run, hrun]
        simp [Bindings.insert, Bindings.count, lexemes, extend, stored, Nat.add_assoc]
      · refine .inr ⟨e, hstop, ?_⟩
        rw [run]
        split <;> simp_all

theorem run_ok_iff {f : Fragment} {b b' : Bindings} {ts : List Lexeme} :
    f.run dialect b = (.ok ts, b') ↔ ∃ mode, Hurdle.passAll b.mode f.hurdles = .ok mode
      ∧ ts = f.lexemes dialect b.index ∧ b' = f.extend dialect b mode := by
  rcases f.run_or_stop dialect b with ⟨mode, hpass, hrun⟩ | ⟨e, hstop, hrun⟩
  · rw [hrun, hpass]
    simp [eq_comm]
  · rw [hstop]
    constructor
    · intro h
      simp [h] at hrun
    · rintro ⟨mode, hpass, -⟩
      cases hpass

theorem run_error_iff {f : Fragment} {b : Bindings} {e : CompileError} :
    (f.run dialect b).1 = .error e ↔ Hurdle.passAll b.mode f.hurdles = .error e := by
  rcases f.run_or_stop dialect b with ⟨mode, hpass, hrun⟩ | ⟨e', hstop, hrun⟩
  · simp [hrun, hpass]
  · rw [hrun, hstop]
    simp

theorem run_of_hurdles {f : Fragment} (h : f.hurdles = []) (dialect : Dialect) (b : Bindings) :
    f.run dialect b = (.ok (f.lexemes dialect b.index), f.extend dialect b b.mode) := by
  refine run_ok_iff.2 ⟨b.mode, ?_, rfl, rfl⟩
  rw [h]
  rfl

/-- Where there are no block modes, what is bound has nothing in its way. -/
theorem Plain.hurdles_of_run {f : Fragment} {b b' : Bindings} (hf : f.Plain dialect)
    (hd : dialect ≠ .mysql) {ts : List Lexeme} (h : f.run dialect b = (.ok ts, b')) :
    f.hurdles = [] := by
  obtain ⟨mode, hpass, -⟩ := run_ok_iff.1 h
  refine List.eq_nil_iff_forall_not_mem.2 fun hurdle => ?_
  cases hurdle with
  | mode m => exact hf.mode_not_mem hd m
  | error e => exact Hurdle.not_mem_of_passAll hpass e

end Fragment

end QueryTree
