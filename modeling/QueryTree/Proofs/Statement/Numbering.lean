import QueryTree.Proofs.Statement.Basic

/-!
# Numbers and kinds of placeholders

How many placeholders of each kind a statement has, and which value each of them stands for.

* `Atom.number?`: the number of a placeholder.
* `PlaceholdersMatch`: the rule of each dialect.
* `Config.numbering_of_statement`: every compiled statement follows the rule of its dialect, and
  the index is the number of values all along.
* `Config.numbering_of_statement_compared`: a statement whose numbers fall from left to right.
-/

namespace QueryTree

/-- The number of a numbered placeholder. -/
def Atom.number? : Atom → Option Nat
  | .numbered k => some k
  | _ => none

/-- The placeholders of a text against the values of its statement. Where placeholders are
numbered, each number up to the count of the values is used once. Where they are not, there is one
for each value, and where names are bound, the placeholders for names are as many as the names
among the values. -/
def PlaceholdersMatch (dialect : Dialect) (atoms : List Atom) (values : List Value) : Prop :=
  match dialect with
  | .mysql =>
    (∀ k, .numbered k ∉ atoms)
      ∧ atoms.count .doubleQuestion = values.countP Value.isIdentifier
      ∧ atoms.count .question = values.countP (!·.isIdentifier)
  | .postgresql =>
    .question ∉ atoms ∧ .doubleQuestion ∉ atoms
      ∧ (atoms.filterMap Atom.number?).Perm (List.range' 1 values.length)
      ∧ ∀ v ∈ values, v.isIdentifier = false
  | .sqlite =>
    (∀ k, .numbered k ∉ atoms) ∧ .doubleQuestion ∉ atoms
      ∧ atoms.count .question = values.length
      ∧ ∀ v ∈ values, v.isIdentifier = false

variable {dialect : Dialect} {f : Fragment} {n : Nat} {mode mode' : Option Cipher.Mode}
  {marks : List Mark} {stored : List Call}

/-! ## Counting placeholders -/

theorem Call.atom_eq_numbered (c : Call) (hd : dialect.isPositional = false)
    (hv : c.value.isIdentifier = false) : c.atom dialect = .numbered c.number := by
  simp [Call.atom, hv, hd]

section Counting

variable {atoms : List Atom}
  (hatoms : atoms.filter Atom.isPlaceholder = (placed marks).map (Call.atom dialect))

include hatoms

theorem exists_call_of_mem {a : Atom} (ha : a.isPlaceholder = true) (hmem : a ∈ atoms) :
    ∃ c : Call, c.atom dialect = a := by
  have hfilter : a ∈ atoms.filter Atom.isPlaceholder := List.mem_filter.2 ⟨hmem, ha⟩
  rw [hatoms, List.mem_map] at hfilter
  obtain ⟨c, -, hc⟩ := hfilter
  exact ⟨c, hc⟩

/-- Numbered placeholders are those of the dialect that is not positional. -/
theorem numbered_not_mem (hd : dialect.isPositional = true) (k : Nat) : .numbered k ∉ atoms := by
  intro hmem
  obtain ⟨c, hc⟩ := exists_call_of_mem hatoms rfl hmem
  cases hv : c.value.isIdentifier <;> simp [Call.atom, hv, hd] at hc

theorem question_not_mem (hd : dialect.isPositional = false) : .question ∉ atoms := by
  intro hmem
  obtain ⟨c, hc⟩ := exists_call_of_mem hatoms rfl hmem
  cases hv : c.value.isIdentifier <;> simp [Call.atom, hv, hd] at hc

theorem count_atoms (hperm : (placed marks).Perm stored) {a : Atom}
    (ha : a.isPlaceholder = true) : atoms.count a = stored.countP (·.atom dialect == a) := by
  rw [← List.count_filter ha, hatoms, List.count_eq_countP, List.countP_map, hperm.countP_eq]
  rfl

theorem count_doubleQuestion (hperm : (placed marks).Perm stored) :
    atoms.count .doubleQuestion = (stored.map Call.value).countP Value.isIdentifier := by
  rw [count_atoms hatoms hperm rfl, List.countP_map]
  exact List.countP_congr fun c _ => by simp [c.atom_beq_doubleQuestion]

theorem count_question (hd : dialect.isPositional = true) (hperm : (placed marks).Perm stored) :
    atoms.count .question = (stored.map Call.value).countP (!·.isIdentifier) := by
  rw [count_atoms hatoms hperm rfl, List.countP_map]
  refine List.countP_congr fun c _ => ?_
  cases hv : c.value.isIdentifier <;> simp [Call.atom, hv, hd]

theorem filterMap_number?_atoms (hd : dialect.isPositional = false)
    (hvalues : ∀ c ∈ placed marks, c.value.isIdentifier = false) :
    atoms.filterMap Atom.number? = (placed marks).map Call.number := by
  have hnumber : ∀ a : Atom, (if a.isPlaceholder = true then a.number? else none) = a.number? := by
    intro a
    cases a <;> rfl
  have hcall : ∀ c ∈ placed marks, c.atom dialect = .numbered c.number :=
    fun c hc => c.atom_eq_numbered hd (hvalues c hc)
  calc atoms.filterMap Atom.number?
      = (atoms.filter Atom.isPlaceholder).filterMap Atom.number? := by
        rw [List.filterMap_filter, funext hnumber]
    _ = ((placed marks).map fun c => .numbered c.number).filterMap Atom.number? := by
        rw [hatoms, List.map_congr_left hcall]
    _ = (placed marks).map Call.number := by
        simp [List.filterMap_map, Function.comp_def, Atom.number?]

end Counting

/-- **The text of a trace follows the rule of its dialect.** -/
theorem Traces.placeholdersMatch (h : Traces dialect f 0 mode marks stored mode')
    (hf : f.Plain dialect) {atoms : List Atom}
    (hatoms : atoms.filter Atom.isPlaceholder = (placed marks).map (Call.atom dialect)) :
    PlaceholdersMatch dialect atoms (stored.map Call.value) := by
  have hnames := count_doubleQuestion hatoms h.perm_placed
  have hvalues : dialect.bindsNames = false →
      ∀ v ∈ stored.map Call.value, v.isIdentifier = false := by
    intro hd v hv
    obtain ⟨c, hc, rfl⟩ := List.mem_map.1 hv
    exact h.isIdentifier_eq_false hf hd c hc
  have hno : dialect.bindsNames = false → .doubleQuestion ∉ atoms := by
    intro hd
    rw [← List.count_eq_zero, hnames, List.countP_eq_zero]
    simpa using hvalues hd
  cases dialect with
  | mysql => exact ⟨numbered_not_mem hatoms rfl, hnames, count_question hatoms rfl h.perm_placed⟩
  | postgresql =>
      refine ⟨question_not_mem hatoms rfl, hno rfl, ?_, hvalues rfl⟩
      have hplaced : ∀ c ∈ placed marks, c.value.isIdentifier = false := fun c hc =>
        h.isIdentifier_eq_false hf rfl c (h.perm_placed.mem_iff.1 hc)
      rw [filterMap_number?_atoms hatoms rfl hplaced, List.length_map]
      exact (h.perm_placed.map Call.number).trans h.perm_numbers
  | sqlite =>
      refine ⟨numbered_not_mem hatoms rfl, hno rfl, ?_, hvalues rfl⟩
      rw [count_question hatoms rfl h.perm_placed, List.countP_eq_length]
      simpa using hvalues rfl

namespace Config

/-- **Placeholders and values match.** While a statement is bound, from its first value to its last
or to an error, the index is the number of values. Once it is compiled, its placeholders follow the
rule of the dialect, and the placeholder with the number `k` came from the call that stored the
value before the place `k`. -/
theorem numbering_of_statement (config : Config) (kind : StatementKind) (json : Json) :
    (∀ f, config.fragment kind json = .ok f → ∀ b, Bindings.Visits config.dialect f .empty b →
      b.index = b.values.length)
    ∧ ∀ c, config.statement kind json = .ok c →
      ∃ f marks stored atoms, Traced config kind json c f marks stored atoms
        ∧ PlaceholdersMatch config.dialect atoms c.values
        ∧ (config.dialect = .postgresql →
          ∀ call ∈ placed marks, call.atom .postgresql = .numbered call.number
            ∧ stored[call.number - 1]? = some call) := by
  refine ⟨fun f _ b hb => hb.counted rfl, fun c hc => ?_⟩
  obtain ⟨f, marks, stored, htraced, hplain, -⟩ := exists_traced hc
  obtain ⟨mode, htraces⟩ := htraced.traces
  refine ⟨f, marks, stored, _, htraced, ?_, fun hd call hcall => ?_⟩
  · rw [htraced.values_eq]
    exact htraces.placeholdersMatch hplain htraced.placeholders_eq
  · have hvalue := htraces.isIdentifier_eq_false hplain (by simp [hd, Dialect.bindsNames]) call
      (htraces.perm_placed.mem_iff.1 hcall)
    exact ⟨call.atom_eq_numbered rfl hvalue, htraces.getElem?_number hplain (by simp [hd]) hcall⟩

/-- The query for the rows where `low` and one more is `high` and two more. -/
def sumsCompared : Json :=
  .obj [("table", .str "t"), ("where", .obj [("num", .obj [("value", .str "low"),
    ("add", .num (.int 1)), ("compare", .obj [("num", .obj [("value", .str "high"),
      ("add", .num (.int 2))])])])])]

/-- Numbers need not rise from left to right, but each stands for its own value. -/
theorem numbering_of_statement_compared :
    ∃ c, ({ dialect := .postgresql } : Config).statement .select sumsCompared = .ok c
      ∧ c.sql = "SELECT * FROM \"t\" WHERE (\"low\" + $2) = (\"high\" + $1)"
      ∧ c.values = [.int 2, .int 1]
      ∧ ∃ f marks stored atoms,
        Traced { dialect := .postgresql } .select sumsCompared c f marks stored atoms
          ∧ Bindings.Visits .postgresql f .empty (f.run .postgresql .empty).2
          ∧ (f.run .postgresql .empty).2.index = (f.run .postgresql .empty).2.values.length
          ∧ PlaceholdersMatch .postgresql atoms c.values
          ∧ ∀ call ∈ placed marks, call.atom .postgresql = .numbered call.number
            ∧ stored[call.number - 1]? = some call := by
  have hc : ({ dialect := .postgresql } : Config).statement .select sumsCompared = .ok
      { dialect := .postgresql, values := [.int 2, .int 1], preamble := [], omissions := [],
        sql := "SELECT * FROM \"t\" WHERE (\"low\" + $2) = (\"high\" + $1)" } := rfl
  obtain ⟨hindex, hnumbers⟩ :=
    numbering_of_statement { dialect := .postgresql } .select sumsCompared
  obtain ⟨f, marks, stored, atoms, htraced, hmatch, hcalls⟩ := hnumbers _ hc
  have hvisits : Bindings.Visits .postgresql f .empty (f.run .postgresql .empty).2 :=
    .finish f .empty
  exact ⟨_, hc, rfl, rfl, f, marks, stored, atoms, htraced, hvisits,
    hindex f htraced.fragment_eq _ hvisits, hmatch, hcalls rfl⟩

end Config

end QueryTree
