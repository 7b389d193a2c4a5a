import QueryTree.Proofs.Binding.Run

/-!
# Traces of bindings

A trace tells for each lexeme of a fragment which call of the binding operations gave it, and for
each bound value which call stored it. Calls are told apart by their numbers.

* `Call`, `Mark`: calls, and lexemes with the call that gave them.
* `Traces`: the traces of successful bindings, constructor by constructor.
* `Traces.run`, `Traces.of_run`: a fragment has a trace exactly if it is bound without an error,
  and the trace without its calls is what is written and bound.
* `Traces.perm_placed`, `Traces.perm_numbers`: the calls in the text are those that stored the
  values, up to order, and each number is used once.
* `Traces.placed_eq_stored_iff`: the two orders agree exactly if the fragment is
  `Fragment.aligned`.
-/

namespace QueryTree

/-- A call that binds a value. -/
structure Call where
  number : Nat
  value : Value
deriving DecidableEq, Repr

/-- A lexeme with the call that gave it, if it came from one. -/
structure Mark where
  lexeme : Lexeme
  call? : Option Call := none
deriving DecidableEq, Repr

/-- Lexemes that came from no call. -/
def fixed (ts : List Lexeme) : List Mark :=
  ts.map fun t => { lexeme := t }

/-- The calls of a text, from left to right. -/
def placed (marks : List Mark) : List Call :=
  marks.filterMap Mark.call?

/-- `Traces dialect f n mode marks stored mode'`: bound after `n` values under the block mode
`mode`, the fragment `f` writes the lexemes of `marks`, each given by the call that stands with it.
The calls that stored the new values are `stored`, in the order of the values, and afterwards the
block mode is `mode'`. -/
inductive Traces (dialect : Dialect) :
    Fragment → Nat → Option Cipher.Mode → List Mark → List Call → Option Cipher.Mode → Prop
  | empty (n : Nat) (mode : Option Cipher.Mode) : Traces dialect .empty n mode [] [] mode
  | token (t : Lexeme) (n : Nat) (mode : Option Cipher.Mode) :
      Traces dialect (.token t) n mode [⟨t, none⟩] [] mode
  | value (v : Value) (n : Nat) (mode : Option Cipher.Mode) :
      Traces dialect (.value v) n mode [⟨.slot (n + 1), some ⟨n + 1, v⟩⟩] [⟨n + 1, v⟩] mode
  | secret (s : String) (n : Nat) (mode : Option Cipher.Mode) :
      Traces dialect (.secret s) n mode [⟨.slot (n + 1), some ⟨n + 1, .text s⟩⟩]
        [⟨n + 1, .text s⟩] mode
  | boundPath (p : String) (n : Nat) (mode : Option Cipher.Mode) : dialect.bindsNames = true →
      Traces dialect (.path p) n mode [⟨.nameSlot, some ⟨n + 1, .identifier p⟩⟩]
        [⟨n + 1, .identifier p⟩] mode
  | path (p : String) (n : Nat) (mode : Option Cipher.Mode) : dialect.bindsNames = false →
      Traces dialect (.path p) n mode [⟨.name (Text.pathParts p), none⟩] [] mode
  | boundOutputName (name : String) (n : Nat) (mode : Option Cipher.Mode) :
      dialect.bindsNames = true →
      Traces dialect (.outputName name) n mode [⟨.slot (n + 1), some ⟨n + 1, .text name⟩⟩]
        [⟨n + 1, .text name⟩] mode
  | outputName (name : String) (n : Nat) (mode : Option Cipher.Mode) :
      dialect.bindsNames = false →
      Traces dialect (.outputName name) n mode [⟨.name [name], none⟩] [] mode
  | mode (m : Cipher.Mode) (n : Nat) {mode : Option Cipher.Mode} :
      mode = none ∨ mode = some m → Traces dialect (.mode m) n mode [] [] (some m)
  | enclosed {delimiters : Delimiters} {body : Fragment} {n : Nat}
      {mode mode' : Option Cipher.Mode} {marks : List Mark} {stored : List Call} :
      Traces dialect body n mode marks stored mode' →
      Traces dialect (.enclosed delimiters body) n mode
        (fixed delimiters.left ++ marks ++ fixed delimiters.right) stored mode'
  | append {f g : Fragment} {n : Nat} {mode₀ mode₁ mode₂ : Option Cipher.Mode}
      {ms ns : List Mark} {cs ds : List Call} :
      Traces dialect f n mode₀ ms cs mode₁ → Traces dialect g (n + cs.length) mode₁ ns ds mode₂ →
      Traces dialect (.append f g) n mode₀ (ms ++ ns) (cs ++ ds) mode₂
  /-- The right side is bound first, but written last. -/
  | crossed {left right : Fragment} {n : Nat} {mode₀ mode₁ mode₂ : Option Cipher.Mode}
      {ms ns : List Mark} {cs ds : List Call} :
      Traces dialect right n mode₀ ns cs mode₁ →
      Traces dialect left (n + cs.length) mode₁ ms ds mode₂ →
      Traces dialect (.crossed left right) n mode₀ (ms ++ ns) (cs ++ ds) mode₂
  | led {v : Value} {body : Fragment} {n : Nat} {mode mode' : Option Cipher.Mode}
      {marks : List Mark} {stored : List Call} :
      Traces dialect body n mode marks stored mode' →
      Traces dialect (.led v body) n mode
        (⟨.slot (n + stored.length + 1), some ⟨n + stored.length + 1, v⟩⟩ :: marks)
        (⟨n + stored.length + 1, v⟩ :: stored) mode'

variable {dialect : Dialect} {f : Fragment} {n : Nat} {mode mode' : Option Cipher.Mode}
  {marks : List Mark} {stored : List Call}

@[simp] theorem map_lexeme_fixed (ts : List Lexeme) : (fixed ts).map Mark.lexeme = ts := by
  simp [fixed, Function.comp_def]

@[simp] theorem placed_fixed (ts : List Lexeme) : placed (fixed ts) = [] := by
  simp [placed, fixed]

@[simp] theorem placed_append (ms ns : List Mark) : placed (ms ++ ns) = placed ms ++ placed ns := by
  simp [placed]

/-! ## Traces and bindings -/

/-- Without its calls, a trace is what is written and bound. -/
theorem Traces.run (h : Traces dialect f n mode marks stored mode') (values : List Value) :
    f.run dialect ⟨n, values, mode⟩
      = (.ok (marks.map Mark.lexeme),
        ⟨n + stored.length, values ++ stored.map Call.value, mode'⟩) := by
  induction h generalizing values with
  | empty n mode => simp [Fragment.run]
  | token t n mode => simp [Fragment.run]
  | value v n mode => simp [Fragment.run, Fragment.single, Bindings.value]
  | secret s n mode => simp [Fragment.run, Fragment.single, Bindings.value]
  | boundPath p n mode hd => simp [Fragment.run, Fragment.single, Bindings.identifier, hd]
  | path p n mode hd => simp [Fragment.run, Fragment.single, Bindings.identifier, hd]
  | boundOutputName name n mode hd =>
      simp [Fragment.run, Fragment.single, Bindings.outputName, hd, Bindings.value]
  | outputName name n mode hd => simp [Fragment.run, Fragment.single, Bindings.outputName, hd]
  | mode m n hm =>
      refine Fragment.run_mode_ok.2 ⟨?_, rfl⟩
      rcases hm with rfl | rfl <;> simp [Bindings.require]
  | enclosed _ ih => exact Fragment.run_enclosed_ok.2 ⟨_, ih values, by simp⟩
  | append _ _ ihf ihg =>
      refine Fragment.run_append_ok.2 ⟨_, _, _, ihf values, ?_, List.map_append⟩
      rw [ihg]
      simp [Nat.add_assoc]
  | crossed _ _ ihr ihl =>
      refine Fragment.run_crossed_ok.2 ⟨_, _, _, ihr values, ?_, List.map_append⟩
      rw [ihl]
      simp [Nat.add_assoc]
  | led _ ih =>
      refine Fragment.run_led_ok.2 ⟨_, _, ih values, by simp, ?_⟩
      simp [Bindings.insert, Bindings.count, Nat.add_assoc]

/-- A trace agrees with the binding that it is a trace of. -/
theorem Traces.eq_of_run (htrace : Traces dialect f n mode marks stored mode')
    {values : List Value} {ts : List Lexeme} {b : Bindings}
    (h : f.run dialect ⟨n, values, mode⟩ = (.ok ts, b)) :
    ts = marks.map Mark.lexeme
      ∧ b = ⟨n + stored.length, values ++ stored.map Call.value, mode'⟩ := by
  simpa using h.symm.trans (htrace.run values)

/-- Every binding without an error has a trace. -/
theorem Traces.of_run {values : List Value} {ts : List Lexeme} {b : Bindings}
    (h : f.run dialect ⟨n, values, mode⟩ = (.ok ts, b)) :
    ∃ marks stored mode', Traces dialect f n mode marks stored mode'
      ∧ ts = marks.map Mark.lexeme
      ∧ b = ⟨n + stored.length, values ++ stored.map Call.value, mode'⟩ := by
  suffices ∃ marks stored mode', Traces dialect f n mode marks stored mode' by
    obtain ⟨marks, stored, mode', htrace⟩ := this
    exact ⟨marks, stored, mode', htrace, htrace.eq_of_run h⟩
  induction f generalizing n mode values ts b with
  | empty => exact ⟨_, _, _, .empty n mode⟩
  | token t => exact ⟨_, _, _, .token t n mode⟩
  | value v => exact ⟨_, _, _, .value v n mode⟩
  | secret s => exact ⟨_, _, _, .secret s n mode⟩
  | path p =>
      cases hd : dialect.bindsNames with
      | true => exact ⟨_, _, _, .boundPath p n mode hd⟩
      | false => exact ⟨_, _, _, .path p n mode hd⟩
  | outputName name =>
      cases hd : dialect.bindsNames with
      | true => exact ⟨_, _, _, .boundOutputName name n mode hd⟩
      | false => exact ⟨_, _, _, .outputName name n mode hd⟩
  | mode m =>
      refine ⟨_, _, _, .mode m n ?_⟩
      obtain ⟨hm, rfl⟩ := Fragment.run_mode_ok.1 h
      simp only [Bindings.require] at hm
      split at hm
      · split at hm
        · next hcurrent => exact .inr (congrArg some hcurrent)
        · cases hm
      · exact .inl rfl
  | fail e => simp [Fragment.run] at h
  | enclosed delimiters body ih =>
      obtain ⟨us, hbody, -⟩ := Fragment.run_enclosed_ok.1 h
      obtain ⟨marks, stored, mode', htrace⟩ := ih hbody
      exact ⟨_, _, _, .enclosed htrace⟩
  | append first second ihf ihs =>
      obtain ⟨ts₁, b₁, ts₂, hfirst, hsecond, -⟩ := Fragment.run_append_ok.1 h
      obtain ⟨ms, cs, mode₁, hms⟩ := ihf hfirst
      obtain ⟨-, rfl⟩ := hms.eq_of_run hfirst
      obtain ⟨ns, ds, mode₂, hns⟩ := ihs hsecond
      exact ⟨_, _, _, .append hms hns⟩
  | crossed left right ihl ihr =>
      obtain ⟨us, b₁, ls, hright, hleft, -⟩ := Fragment.run_crossed_ok.1 h
      obtain ⟨ns, cs, mode₁, hns⟩ := ihr hright
      obtain ⟨-, rfl⟩ := hns.eq_of_run hright
      obtain ⟨ms, ds, mode₂, hms⟩ := ihl hleft
      exact ⟨_, _, _, .crossed hns hms⟩
  | led v body ih =>
      obtain ⟨us, b₁, hbody, -, -⟩ := Fragment.run_led_ok.1 h
      obtain ⟨marks, stored, mode', htrace⟩ := ih hbody
      exact ⟨_, _, _, .led htrace⟩

/-! ## Calls in the text and calls in the list -/

/-- **The calls in the text are those that stored the values.** -/
theorem Traces.perm_placed (h : Traces dialect f n mode marks stored mode') :
    (placed marks).Perm stored := by
  induction h with
  | enclosed _ ih => simpa using ih
  | append _ _ ihf ihg =>
      rw [placed_append]
      exact ihf.append ihg
  | crossed _ _ ihr ihl =>
      rw [placed_append]
      exact (ihl.append ihr).trans List.perm_append_comm
  | led _ ih => simpa [placed] using ih
  | _ => simp [placed]

/-- The numbers after `n` that two lists of calls take up. -/
theorem range'_length_append (n : Nat) (cs ds : List Call) :
    List.range' (n + 1) (cs ++ ds).length
      = List.range' (n + 1) cs.length ++ List.range' (n + cs.length + 1) ds.length := by
  rw [List.length_append, Nat.add_right_comm, List.range'_append_1]

/-- The numbers of the calls are those after `n`, each once. -/
theorem Traces.perm_numbers (h : Traces dialect f n mode marks stored mode') :
    (stored.map Call.number).Perm (List.range' (n + 1) stored.length) := by
  induction h with
  | enclosed _ ih => exact ih
  | append _ _ ihf ihg =>
      rw [List.map_append, range'_length_append]
      exact ihf.append ihg
  | crossed _ _ ihr ihl =>
      rw [List.map_append, range'_length_append]
      exact ihr.append ihl
  | led _ ih =>
      -- the last number comes first
      rw [List.map_cons, List.length_cons, List.range'_1_concat, Nat.add_right_comm]
      exact (ih.cons _).trans (List.perm_append_singleton _ _).symm
  | _ => simp

theorem Traces.number_mem (h : Traces dialect f n mode marks stored mode') {c : Call}
    (hc : c ∈ stored) : n < c.number ∧ c.number ≤ n + stored.length := by
  have hmem : c.number ∈ List.range' (n + 1) stored.length :=
    h.perm_numbers.mem_iff.1 (List.mem_map_of_mem hc)
  rw [List.mem_range'_1] at hmem
  omega

/-- Where no value is bound in front of others, the numbers follow the list of values. -/
theorem Traces.numbers_eq (h : Traces dialect f n mode marks stored mode')
    (hf : f.Plain dialect) (hd : dialect ≠ .sqlite) :
    stored.map Call.number = List.range' (n + 1) stored.length := by
  induction h with
  | enclosed _ ih => exact ih hf
  | append _ _ ihf ihg => rw [List.map_append, range'_length_append, ihf hf.1, ihg hf.2]
  | crossed _ _ ihr ihl => rw [List.map_append, range'_length_append, ihr hf.2, ihl hf.1]
  | led _ _ => exact absurd hf.1 hd
  | _ => simp

/-- A lexeme is a placeholder exactly if it came from a call, and then it is that of the call. -/
def Mark.Genuine (m : Mark) : Prop :=
  match m.call? with
  | some c => m.lexeme = if c.value.isIdentifier then .nameSlot else .slot c.number
  | none => (∀ index, m.lexeme ≠ .slot index) ∧ m.lexeme ≠ .nameSlot

theorem genuine_fixed_left (delimiters : Delimiters) : ∀ m ∈ fixed delimiters.left, m.Genuine := by
  cases delimiters <;> simp [fixed, Delimiters.left, Mark.Genuine]

theorem genuine_fixed_right (delimiters : Delimiters) :
    ∀ m ∈ fixed delimiters.right, m.Genuine := by
  cases delimiters <;> simp [fixed, Delimiters.right, Mark.Genuine]

theorem Traces.genuine (h : Traces dialect f n mode marks stored mode')
    (hf : f.Plain dialect) : ∀ m ∈ marks, m.Genuine := by
  induction h with
  | token t n mode => simpa [Mark.Genuine, Fragment.Plain] using hf
  | value v n mode =>
      have hv : v.isIdentifier = false := hf
      simp [Mark.Genuine, hv]
  | enclosed _ ih =>
      refine List.forall_mem_append.2 ⟨?_, genuine_fixed_right _⟩
      exact List.forall_mem_append.2 ⟨genuine_fixed_left _, ih hf⟩
  | append _ _ ihf ihg => exact List.forall_mem_append.2 ⟨ihf hf.1, ihg hf.2⟩
  | crossed _ _ ihr ihl => exact List.forall_mem_append.2 ⟨ihl hf.1, ihr hf.2⟩
  | led _ ih =>
      obtain ⟨-, hv, hbody⟩ := hf
      refine List.forall_mem_cons.2 ⟨?_, ih hbody⟩
      simp [Mark.Genuine, hv]
  | _ => simp [Mark.Genuine, Value.isIdentifier]

/-- Where names are not bound, no value is a name. -/
theorem Traces.isIdentifier_eq_false (h : Traces dialect f n mode marks stored mode')
    (hf : f.Plain dialect) (hd : dialect.bindsNames = false) :
    ∀ c ∈ stored, c.value.isIdentifier = false := by
  induction h with
  | value v n mode => simpa [Fragment.Plain] using hf
  | boundPath p n mode hbinds => simp [hd] at hbinds
  | enclosed _ ih => exact ih hf
  | append _ _ ihf ihg => exact List.forall_mem_append.2 ⟨ihf hf.1, ihg hf.2⟩
  | crossed _ _ ihr ihl => exact List.forall_mem_append.2 ⟨ihr hf.2, ihl hf.1⟩
  | led _ ih => exact List.forall_mem_cons.2 ⟨hf.2.1, ih hf.2.2⟩
  | _ => simp [Value.isIdentifier]

/-- Where no value is bound in front of others, the number of a call tells which value it
stored. -/
theorem Traces.getElem?_number (h : Traces dialect f 0 mode marks stored mode')
    (hf : f.Plain dialect) (hd : dialect ≠ .sqlite) {c : Call} (hc : c ∈ placed marks) :
    stored[c.number - 1]? = some c := by
  obtain ⟨i, hi, rfl⟩ := List.getElem_of_mem (h.perm_placed.mem_iff.1 hc)
  have hnumber : (stored.map Call.number)[i]? = some (1 + i) := by
    rw [h.numbers_eq hf hd]
    simp [hi]
  have hnumber : stored[i].number = 1 + i := by simpa [hi] using hnumber
  rw [hnumber, Nat.add_sub_cancel_left]
  exact List.getElem?_eq_getElem hi

/-! ## Fragments that are bound in the order of the text -/

namespace Fragment

/-- Whether a fragment binds anything. -/
def binds (dialect : Dialect) : Fragment → Bool
  | .value _ | .secret _ | .led _ _ => true
  | .path _ | .outputName _ => dialect.bindsNames
  | .enclosed _ body => body.binds dialect
  | .append first second => first.binds dialect || second.binds dialect
  | .crossed left right => left.binds dialect || right.binds dialect
  | .empty | .token _ | .mode _ | .fail _ => false

/-- Whether the values of a fragment follow its text: of two sides that are bound crosswise, one
binds nothing. -/
def aligned (dialect : Dialect) : Fragment → Bool
  | .enclosed _ body | .led _ body => body.aligned dialect
  | .append first second => first.aligned dialect && second.aligned dialect
  | .crossed left right =>
    left.aligned dialect && right.aligned dialect
      && !(left.binds dialect && right.binds dialect)
  | _ => true

variable (f g : Fragment)

@[simp]
theorem aligned_append :
    (f ++ g).aligned dialect = (f.aligned dialect && g.aligned dialect) := rfl

@[simp]
theorem aligned_word (w : String) : (word w).aligned dialect = true := rfl

@[simp]
theorem aligned_parens : (parens f).aligned dialect = f.aligned dialect := rfl

@[simp]
theorem aligned_tokens (ts : List Lexeme) : (tokens ts).aligned dialect = true := by
  induction ts with
  | nil => rfl
  | cons t ts ih => simp [tokens, aligned, ih]

@[simp]
theorem aligned_join (separator : List Lexeme) (fs : List Fragment) :
    (join separator fs).aligned dialect = fs.all (aligned dialect) := by
  induction fs with
  | nil => rfl
  | cons f fs ih =>
      cases fs with
      | nil => simp [join]
      | cons g fs => simp [join, ih]

@[simp]
theorem aligned_words (ws : List String) : (words ws).aligned dialect = true := by
  simp [words, spaced]

end Fragment

theorem Traces.stored_eq_nil_iff (h : Traces dialect f n mode marks stored mode') :
    stored = [] ↔ f.binds dialect = false := by
  induction h with
  | enclosed _ ih => exact ih
  | append _ _ ihf ihg => simp [Fragment.binds, ihf, ihg]
  | crossed _ _ ihr ihl => simp [Fragment.binds, ihr, ihl, and_comm]
  | _ => simp_all [Fragment.binds]

/-- Two sides that both bind something, and are bound crosswise, are out of order. -/
theorem Traces.placed_ne_of_crossed {left right : Fragment} {mode₀ mode₁ mode₂ : Option Cipher.Mode}
    {ms ns : List Mark} {cs ds : List Call} (hr : Traces dialect right n mode₀ ns cs mode₁)
    (hl : Traces dialect left (n + cs.length) mode₁ ms ds mode₂) (hcs : cs ≠ []) (hds : ds ≠ []) :
    placed ms ++ placed ns ≠ cs ++ ds := by
  intro heq
  have hms : placed ms ≠ [] := fun hnil => hds (List.nil_perm.1 (hnil ▸ hl.perm_placed))
  obtain ⟨d, ds', hplaced⟩ := List.exists_cons_of_ne_nil hms
  obtain ⟨c, cs', rfl⟩ := List.exists_cons_of_ne_nil hcs
  -- the first call of the text belongs to the left side, the first of the list to the right
  have hhead : d = c := by
    rw [hplaced] at heq
    exact (List.cons.inj heq).1
  have hd : d ∈ ds := hl.perm_placed.mem_iff.1 (by simp [hplaced])
  have hleft := hl.number_mem hd
  have hright := hr.number_mem (List.mem_cons_self : c ∈ c :: cs')
  rw [hhead] at hleft
  omega

/-- **The calls stand in the text as their values stand in the list, exactly if the fragment is
aligned.** -/
theorem Traces.placed_eq_stored_iff (h : Traces dialect f n mode marks stored mode') :
    placed marks = stored ↔ f.aligned dialect = true := by
  induction h with
  | enclosed _ ih => simpa [Fragment.aligned] using ih
  | append hf hg ihf ihg =>
      rw [placed_append, Fragment.aligned, Bool.and_eq_true, ← ihf, ← ihg]
      constructor
      · intro heq
        exact List.append_inj heq hf.perm_placed.length_eq
      · rintro ⟨hfirst, hsecond⟩
        rw [hfirst, hsecond]
  | @crossed left right n mode₀ mode₁ mode₂ ms ns cs ds hr hl ihr ihl =>
      rw [placed_append, Fragment.aligned]
      by_cases hcs : cs = []
      · subst hcs
        have hns : placed ns = [] := List.perm_nil.1 hr.perm_placed
        have hright : right.binds dialect = false := hr.stored_eq_nil_iff.1 rfl
        simp [hns, hright, ← ihl, ← ihr]
      · by_cases hds : ds = []
        · subst hds
          have hms : placed ms = [] := List.perm_nil.1 hl.perm_placed
          have hleft : left.binds dialect = false := hl.stored_eq_nil_iff.1 rfl
          simp [hms, hleft, ← ihl, ← ihr]
        · have hleft : left.binds dialect = true := by
            rwa [← Bool.not_eq_false, ← hl.stored_eq_nil_iff]
          have hright : right.binds dialect = true := by
            rwa [← Bool.not_eq_false, ← hr.stored_eq_nil_iff]
          simp [hleft, hright, hr.placed_ne_of_crossed hl hcs hds]
  | led _ ih => simpa [Fragment.aligned, placed] using ih
  | _ => simp [placed, Fragment.aligned]

end QueryTree
