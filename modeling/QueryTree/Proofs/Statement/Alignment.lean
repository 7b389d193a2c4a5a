import Mathlib.Data.List.Forall2
import Mathlib.Data.List.Perm.Subperm
import QueryTree.Proofs.Binding.Written
import QueryTree.Proofs.Options.Rearranged
import QueryTree.Sql.Statement

/-!
# Rows under their columns

An insertion names the columns of its first row, and every row puts its values under the columns
they belong to, whatever order they are given in.

* `Fragment.Spelled`: fragments bound one after the other, each with its text.
* `Write.Aligned`: rows spelled as lists of items, each the cell of its column.
* `Write.spelled_tuples`: what the rows of an insertion amount to.
* `Write.aligned_fragment`: rows of the same columns are written item by item under the columns,
  other rows are refused, and the order of the pairs in a later row does not matter.
-/

namespace QueryTree

/-! ## Texts of fragments -/

namespace Fragment

variable {dialect : Dialect}

/-- Bound one after the other, the fragments have these texts. -/
inductive Spelled (dialect : Dialect) :
    List Fragment → Bindings → List String → Bindings → Prop
  | nil (b : Bindings) : Spelled dialect [] b [] b
  | cons {f : Fragment} {fs : List Fragment} {b b₁ b' : Bindings} {text : String}
      {texts : List String} (hf : f.sql dialect b = (.ok text, b₁))
      (hfs : Spelled dialect fs b₁ texts b') :
      Spelled dialect (f :: fs) b (text :: texts) b'

theorem Spelled.length_eq {fs : List Fragment} {b b' : Bindings} {texts : List String}
    (h : Spelled dialect fs b texts b') : texts.length = fs.length := by
  induction h with
  | nil b => rfl
  | cons _ _ ih => rw [List.length_cons, List.length_cons, ih]

theorem Spelled.cons_inv {f : Fragment} {fs : List Fragment} {b b' : Bindings}
    {texts : List String} (h : Spelled dialect (f :: fs) b texts b') :
    ∃ text b₁ rest, f.sql dialect b = (.ok text, b₁) ∧ Spelled dialect fs b₁ rest b'
      ∧ texts = text :: rest := by
  cases h with
  | cons hf hfs => exact ⟨_, _, _, hf, hfs, rfl⟩

theorem Spelled.word_inv {w : String} {fs : List Fragment} {b b' : Bindings}
    {texts : List String} (h : Spelled dialect (word w :: fs) b texts b') :
    ∃ rest, Spelled dialect fs b rest b' ∧ texts = w :: rest := by
  obtain ⟨text, b₁, rest, hw, hfs, rfl⟩ := h.cons_inv
  obtain ⟨ts, hrun, rfl⟩ := sql_ok.1 hw
  cases hrun
  exact ⟨rest, hfs, by simp [render, Lexeme.text]⟩

theorem sql_append_ok {f g : Fragment} {b b' : Bindings} {text : String} :
    (f ++ g).sql dialect b = (.ok text, b') ↔
      ∃ t b₁ u, f.sql dialect b = (.ok t, b₁) ∧ g.sql dialect b₁ = (.ok u, b')
        ∧ text = t ++ u := by
  constructor
  · intro h
    obtain ⟨ts, hrun, rfl⟩ := sql_ok.1 h
    obtain ⟨us, b₁, vs, hf, hg, rfl⟩ := run_append_ok.1 hrun
    refine ⟨_, b₁, _, sql_ok.2 ⟨us, hf, rfl⟩, sql_ok.2 ⟨vs, hg, rfl⟩, ?_⟩
    simp [render]
  · rintro ⟨t, b₁, u, hf, hg, rfl⟩
    obtain ⟨us, hus, rfl⟩ := sql_ok.1 hf
    obtain ⟨vs, hvs, rfl⟩ := sql_ok.1 hg
    refine sql_ok.2 ⟨us ++ vs, run_append_ok.2 ⟨us, b₁, vs, hus, hvs, rfl⟩, ?_⟩
    simp [render]

theorem sql_parens_ok {f : Fragment} {b b' : Bindings} {text : String} :
    (parens f).sql dialect b = (.ok text, b') ↔
      ∃ t, f.sql dialect b = (.ok t, b') ∧ text = "(" ++ t ++ ")" := by
  constructor
  · intro h
    obtain ⟨ts, hrun, rfl⟩ := sql_ok.1 h
    obtain ⟨us, hf, rfl⟩ := run_enclosed_ok.1 hrun
    refine ⟨_, sql_ok.2 ⟨us, hf, rfl⟩, ?_⟩
    simp [render, Delimiters.left, Delimiters.right, Lexeme.text, String.append_assoc]
  · rintro ⟨t, hf, rfl⟩
    obtain ⟨us, hus, rfl⟩ := sql_ok.1 hf
    refine sql_ok.2 ⟨_, run_enclosed_ok.2 ⟨us, hus, rfl⟩, ?_⟩
    simp [render, Delimiters.left, Delimiters.right, Lexeme.text, String.append_assoc]

@[simp] theorem sql_tokens (ts : List Lexeme) (b : Bindings) :
    (tokens ts).sql dialect b = (.ok (render dialect ts), b) :=
  sql_ok.2 ⟨ts, run_tokens ts b, rfl⟩

/-- Fragments with a separator between them have their texts with its text between them. -/
theorem sql_join_ok {separator : List Lexeme} {fs : List Fragment} {b b' : Bindings}
    {text : String} :
    (join separator fs).sql dialect b = (.ok text, b') ↔
      ∃ texts, Spelled dialect fs b texts b'
        ∧ text = (render dialect separator).intercalate texts := by
  induction fs generalizing b text with
  | nil =>
      constructor
      · intro h
        cases h
        exact ⟨[], .nil _, rfl⟩
      · rintro ⟨texts, h, rfl⟩
        cases h
        rfl
  | cons f fs ih =>
      cases fs with
      | nil =>
          constructor
          · intro h
            exact ⟨[text], .cons h (.nil b'), by simp⟩
          · rintro ⟨texts, h, rfl⟩
            cases h with
            | cons hf hrest =>
                cases hrest
                simpa [join] using hf
      | cons g fs =>
          rw [show join separator (f :: g :: fs) = f ++ tokens separator ++ join separator (g :: fs)
            from rfl, sql_append_ok]
          constructor
          · rintro ⟨t, b₂, u, hleft, hrest, rfl⟩
            obtain ⟨t, b₁, s, hf, hseparator, rfl⟩ := sql_append_ok.1 hleft
            rw [sql_tokens] at hseparator
            cases hseparator
            obtain ⟨texts, htexts, rfl⟩ := ih.1 hrest
            refine ⟨t :: texts, .cons hf htexts, ?_⟩
            cases htexts
            rw [String.intercalate_cons_cons]
          · rintro ⟨texts, h, rfl⟩
            cases h with
            | @cons _ _ _ b₁ _ t texts hf hrest =>
                refine ⟨_, b₁, _, sql_append_ok.2 ⟨t, b₁, _, hf, sql_tokens _ b₁, rfl⟩,
                  ih.2 ⟨texts, hrest, rfl⟩, ?_⟩
                cases hrest
                rw [String.intercalate_cons_cons]

theorem sql_commas_ok {fs : List Fragment} {b b' : Bindings} {text : String} :
    (commas fs).sql dialect b = (.ok text, b') ↔
      ∃ texts, Spelled dialect fs b texts b' ∧ text = ", ".intercalate texts :=
  sql_join_ok

end Fragment

open Fragment (spaced commas parens Spelled sql_append_ok sql_parens_ok sql_join_ok sql_commas_ok)

/-- The columns of a row, in the order they are given in. -/
def Row.columns (row : Row) : List String :=
  row.map Prod.fst

namespace Write

variable {write : Write} {scope : Scope} {dialect : Dialect} {first row : Row}

/-- The rows, one after the other, are spelled as lists of items, and each item is the cell of its
column, with the value that the row has for it. -/
inductive Aligned (write : Write) (scope : Scope) (dialect : Dialect) (columns : List String) :
    List Row → Bindings → List (List String) → Bindings → Prop
  | nil (b : Bindings) : Aligned write scope dialect columns [] b [] b
  | cons {row : Row} {rows : List Row} {cells : List Expr} {items : List String}
      {tuples : List (List String)} {b b₁ b' : Bindings}
      (hcells : List.Forall₂ (fun column e => (column, e) ∈ row) columns cells)
      (hitems : Spelled dialect (List.zipWith (write.cell scope) columns cells) b items b₁)
      (hrows : Aligned write scope dialect columns rows b₁ tuples b') :
      Aligned write scope dialect columns (row :: rows) b (items :: tuples) b'

theorem Aligned.length_eq {columns : List String} {rows : List Row} {b b' : Bindings}
    {tuples : List (List String)} (h : write.Aligned scope dialect columns rows b tuples b') :
    tuples.length = rows.length := by
  induction h with
  | nil b => rfl
  | cons _ _ _ ih => rw [List.length_cons, List.length_cons, ih]

theorem Aligned.length_items {columns : List String} {rows : List Row} {b b' : Bindings}
    {tuples : List (List String)} (h : write.Aligned scope dialect columns rows b tuples b') :
    ∀ items ∈ tuples, items.length = columns.length := by
  induction h with
  | nil b => simp
  | cons hcells hitems _ ih =>
      refine List.forall_mem_cons.2 ⟨?_, ih⟩
      rw [hitems.length_eq, List.length_zipWith, ← hcells.length_eq, Nat.min_self]

/-! ## Rows -/

/-- A row that is written has a value for each of the columns. -/
theorem exists_cells {index : Nat} {b b' : Bindings} {items : List String}
    (h : Spelled dialect (first.map fun (column, _) =>
      match row.lookup column with
      | some e => write.cell scope column e
      | none => unevenRow index) b items b') :
    ∃ cells, List.Forall₂ (fun column e => (column, e) ∈ row) first.columns cells
      ∧ Spelled dialect (List.zipWith (write.cell scope) first.columns cells) b items b' := by
  induction first generalizing b items with
  | nil =>
      cases h
      exact ⟨[], .nil, .nil _⟩
  | cons pair rest ih =>
      obtain ⟨column, e⟩ := pair
      rw [List.map_cons] at h
      cases h with
      | cons hitem hrest =>
          obtain ⟨cells, hcells, hitems⟩ := ih hrest
          dsimp only at hitem
          cases hlookup : row.lookup column with
          | none =>
              rw [hlookup] at hitem
              cases hitem
          | some e =>
              rw [hlookup] at hitem
              exact ⟨e :: cells, .cons (mem_of_lookup hlookup) hcells, .cons hitem hitems⟩

theorem sql_tuple_ok {index : Nat} {b b' : Bindings} {text : String}
    (h : (write.tuple scope first index row).sql dialect b = (.ok text, b')) :
    row.length = first.length ∧ ∃ cells items,
      List.Forall₂ (fun column e => (column, e) ∈ row) first.columns cells
        ∧ Spelled dialect (List.zipWith (write.cell scope) first.columns cells) b items b'
        ∧ text = "(" ++ ", ".intercalate items ++ ")" := by
  unfold tuple at h
  split at h
  · next hlength =>
      obtain ⟨body, hbody, rfl⟩ := sql_parens_ok.1 h
      obtain ⟨items, hitems, rfl⟩ := sql_commas_ok.1 hbody
      obtain ⟨cells, hcells, hitems⟩ := exists_cells hitems
      exact ⟨hlength, cells, items, hcells, hitems, rfl⟩
  · cases h

theorem subset_columns {columns : List String} {cells : List Expr}
    (h : List.Forall₂ (fun column e => (column, e) ∈ row) columns cells) :
    columns ⊆ row.columns := by
  induction h with
  | nil => exact List.nil_subset _
  | cons hmem _ ih => exact List.cons_subset.2 ⟨List.mem_map.2 ⟨_, hmem, rfl⟩, ih⟩

/-- As many columns as distinct ones that are among them: then there are no others. -/
theorem mem_columns_iff_of_subset (hdistinct : first.columns.Nodup)
    (hlength : row.length = first.length) (hsubset : first.columns ⊆ row.columns)
    (column : String) : column ∈ row.columns ↔ column ∈ first.columns := by
  have hle : row.columns.length ≤ first.columns.length := by
    simp [Row.columns, hlength]
  have hperm := (List.subperm_of_subset hdistinct hsubset).perm_of_length_le hle
  exact hperm.mem_iff.symm

/-- As many values as columns, and one for each: then there are no others. -/
theorem mem_columns_iff {cells : List Expr} (hdistinct : first.columns.Nodup)
    (hlength : row.length = first.length)
    (hcells : List.Forall₂ (fun column e => (column, e) ∈ row) first.columns cells)
    (column : String) : column ∈ row.columns ↔ column ∈ first.columns :=
  mem_columns_iff_of_subset hdistinct hlength (subset_columns hcells) column

/-- The rows of an insertion that is written have the columns of the first one, and their texts
are lists of items in parentheses. -/
theorem spelled_tuples (rows : List Row) (offset : Nat) {b b' : Bindings} {texts : List String}
    (hdistinct : first.columns.Nodup)
    (h : Spelled dialect (rows.mapIdx fun index => write.tuple scope first (index + offset))
      b texts b') :
    (∀ row ∈ rows, ∀ column, column ∈ row.columns ↔ column ∈ first.columns)
      ∧ ∃ tuples, write.Aligned scope dialect first.columns rows b tuples b'
        ∧ texts = tuples.map fun items => "(" ++ ", ".intercalate items ++ ")" := by
  induction rows generalizing offset b texts with
  | nil =>
      cases h
      exact ⟨by simp, [], .nil _, rfl⟩
  | cons row rows ih =>
      rw [List.mapIdx_cons] at h
      cases h with
      | cons hrow hrows =>
          obtain ⟨hlength, cells, items, hcells, hitems, rfl⟩ := sql_tuple_ok hrow
          have hnext : (fun index => write.tuple scope first (index + 1 + offset))
              = fun index => write.tuple scope first (index + (offset + 1)) := by
            funext index
            rw [Nat.add_assoc, Nat.add_comm 1]
          rw [hnext] at hrows
          obtain ⟨hsame, tuples, htuples, rfl⟩ := ih (offset + 1) hrows
          exact ⟨List.forall_mem_cons.2 ⟨mem_columns_iff hdistinct hlength hcells, hsame⟩,
            items :: tuples, .cons hcells hitems htuples, rfl⟩

/-! ## Rows in another order -/

theorem tuple_eq_of_perm {row' : Row} (hperm : row.Perm row') (hdistinct : row.columns.Nodup)
    (index : Nat) : write.tuple scope first index row' = write.tuple scope first index row := by
  simp only [tuple, hperm.length_eq, lookup_eq_of_perm hperm hdistinct]

theorem mapIdx_tuple_eq {rows rows' : List Row} (h : List.Forall₂ List.Perm rows rows')
    (hdistinct : ∀ row ∈ rows, row.columns.Nodup) (offset : Nat) :
    (rows'.mapIdx fun index => write.tuple scope first (index + offset))
      = rows.mapIdx fun index => write.tuple scope first (index + offset) := by
  induction h generalizing offset with
  | nil => rfl
  | cons hperm _ ih =>
      rw [List.forall_mem_cons] at hdistinct
      rw [List.mapIdx_cons, List.mapIdx_cons, tuple_eq_of_perm hperm hdistinct.1]
      have hrest := ih hdistinct.2 (offset + 1)
      simp only [Nat.add_comm offset 1, ← Nat.add_assoc] at hrest
      rw [hrest]

/-! ## Insertions -/

/-- An insertion is written with the columns of this row: the table, the columns, the rows under
them, and what happens to rows that are there already. -/
def Inserts (write : Write) (outer : Scope) (first : Row) (b : Bindings) (text : String)
    (b' : Bindings) : Prop :=
  ∃ table columns tuples tail b₁ b₂ b₃,
    (Fragment.path write.table).sql outer.dialect b = (.ok table, b₁)
      ∧ Spelled outer.dialect (first.columns.map Fragment.path) b₁ columns b₂
      ∧ write.Aligned (outer.target write.table none write.encryption) outer.dialect
        first.columns write.rows b₂ tuples b₃
      ∧ (write.upsertFragment (outer.target write.table none write.encryption)).sql outer.dialect b₃
        = (.ok tail, b')
      ∧ columns.length = first.length ∧ tuples.length = write.rows.length
      ∧ (∀ items ∈ tuples, items.length = columns.length)
      ∧ text = "INSERT INTO " ++ table ++ " (" ++ ", ".intercalate columns ++ ") VALUES "
        ++ ", ".intercalate (tuples.map fun items => "(" ++ ", ".intercalate items ++ ")") ++ tail

/-- An insertion into the columns of a row, of these tuples. -/
def insertion (write : Write) (outer : Scope) (first : Row) (tuples : List Fragment) : Fragment :=
  spaced ["INSERT", "INTO", .path write.table,
      parens (commas (first.columns.map Fragment.path)), "VALUES", commas tuples]
    ++ write.upsertFragment (outer.target write.table none write.encryption)

theorem insertFragment_eq {outer : Scope} {rest : List Row} (hrows : write.rows = first :: rest) :
    write.insertFragment outer = write.insertion outer first
      (write.rows.mapIdx
        (write.tuple (outer.target write.table none write.encryption) first)) := by
  have hcolumns : first.columns.map Fragment.path
      = first.map fun (column, _) => Fragment.path column := by
    rw [Row.columns, List.map_map]
    rfl
  unfold insertFragment insertion
  rw [hrows, hcolumns]

theorem inserts_of_ok {outer : Scope} {rest : List Row} {b b' : Bindings} {text : String}
    (hrows : write.rows = first :: rest) (hdistinct : first.columns.Nodup)
    (h : (write.insertFragment outer).sql outer.dialect b = (.ok text, b')) :
    (∀ row ∈ write.rows, ∀ column, column ∈ row.columns ↔ column ∈ first.columns)
      ∧ write.Inserts outer first b text b' := by
  rw [insertFragment_eq hrows] at h
  obtain ⟨head, b₃, tail, hhead, htail, rfl⟩ := sql_append_ok.1 h
  obtain ⟨parts, hparts, rfl⟩ := sql_join_ok.1 hhead
  obtain ⟨parts₁, hparts₁, rfl⟩ := hparts.word_inv
  obtain ⟨parts₂, hparts₂, rfl⟩ := hparts₁.word_inv
  obtain ⟨table, b₁, parts₃, htable, hparts₃, rfl⟩ := hparts₂.cons_inv
  obtain ⟨names, b₂, parts₄, hnames, hparts₄, rfl⟩ := hparts₃.cons_inv
  obtain ⟨parts₅, hparts₅, rfl⟩ := hparts₄.word_inv
  obtain ⟨values, b₄, parts₆, hvalues, hparts₆, rfl⟩ := hparts₅.cons_inv
  cases hparts₆
  obtain ⟨body, hbody, rfl⟩ := sql_parens_ok.1 hnames
  obtain ⟨columns, hcolumns, rfl⟩ := sql_commas_ok.1 hbody
  obtain ⟨texts, htexts, rfl⟩ := sql_commas_ok.1 hvalues
  obtain ⟨hsame, tuples, haligned, rfl⟩ := spelled_tuples write.rows 0 hdistinct htexts
  have hlength : columns.length = first.columns.length := by
    rw [hcolumns.length_eq, List.length_map]
  refine ⟨hsame, table, columns, tuples, tail, b₁, b₂, b₃, htable, hcolumns, haligned, htail,
    hlength.trans (List.length_map _), haligned.length_eq,
    fun items hitems => (haligned.length_items items hitems).trans hlength.symm, ?_⟩
  have hspace : render outer.dialect [.space] = " " := rfl
  have hinsert : "INSERT INTO " = "INSERT" ++ (" " ++ ("INTO" ++ " ")) := rfl
  have hopening : " (" = " " ++ "(" := rfl
  have hvalues : ") VALUES " = ")" ++ (" " ++ ("VALUES" ++ " ")) := rfl
  simp only [hspace, hinsert, hopening, hvalues, String.intercalate_cons_cons,
    String.intercalate_singleton, String.append_assoc]

/-- **Rows are written under their columns.** An insertion that compiles has rows of the columns of
the first one; its text has one tuple for each row, in their order, and each tuple has the cell of
each column, in the order of the first row. A row of other columns is refused, and the order of
the pairs in the rows after the first does not matter. -/
theorem aligned_fragment (write : Write) (outer : Scope) (b : Bindings)
    (hfilter : write.filter = none) (hdistinct : ∀ row ∈ write.rows, row.columns.Nodup) :
    (∀ text b', (write.fragment outer).sql outer.dialect b = (.ok text, b') →
      ∃ first rest, write.rows = first :: rest
        ∧ (∀ row ∈ write.rows, ∀ column, column ∈ row.columns ↔ column ∈ first.columns)
        ∧ write.Inserts outer first b text b')
      ∧ (∀ first rest, write.rows = first :: rest →
        (∃ row ∈ write.rows, ∃ column, ¬ (column ∈ row.columns ↔ column ∈ first.columns)) →
        ∃ e b', (write.fragment outer).sql outer.dialect b = (.error e, b'))
      ∧ ∀ first rest rest', write.rows = first :: rest → List.Forall₂ List.Perm rest rest' →
        (Write.fragment { write with rows := first :: rest' } outer).sql outer.dialect b
          = (write.fragment outer).sql outer.dialect b := by
  have hinsert : write.fragment outer = write.insertFragment outer := by
    simp [fragment, hfilter]
  rw [hinsert]
  refine ⟨?_, ?_, ?_⟩
  · intro text b' h
    cases hrows : write.rows with
    | nil =>
        unfold insertFragment at h
        rw [hrows] at h
        cases h
    | cons first rest =>
        rw [← hrows]
        have hfirst : first.columns.Nodup := hdistinct first (by simp [hrows])
        exact ⟨first, rest, hrows, inserts_of_ok hrows hfirst h⟩
  · rintro first rest hrows ⟨row, hrow, column, hcolumn⟩
    have hfirst : first.columns.Nodup := hdistinct first (by simp [hrows])
    cases h : (write.insertFragment outer).sql outer.dialect b with
    | mk result b' =>
        cases result with
        | error e => exact ⟨e, b', rfl⟩
        | ok text => exact absurd ((inserts_of_ok hrows hfirst h).1 row hrow column) hcolumn
  · intro first rest rest' hrows hperm
    rw [hrows, List.forall_mem_cons] at hdistinct
    have htuples : ∀ scope, (first :: rest').mapIdx (write.tuple scope first)
        = (first :: rest).mapIdx (write.tuple scope first) := by
      intro scope
      rw [List.mapIdx_cons, List.mapIdx_cons, mapIdx_tuple_eq hperm hdistinct.2 1]
    have hother : Write.fragment { write with rows := first :: rest' } outer
        = Write.insertFragment { write with rows := first :: rest' } outer := by
      simp [fragment, hfilter]
    rw [hother, insertFragment_eq hrows, insertFragment_eq rfl, hrows]
    exact congrArg (fun tuples => (write.insertion outer first tuples).sql outer.dialect b)
      (htuples _)

/-- Rows of people whose names are encrypted. -/
def people (rest : List Row) : Write where
  table := "people"
  alias? := none
  rows := [("id", .number (.int 1)), ("name", .text "now")] :: rest
  filter := none
  junction := .and
  upsert := []
  indexes := []
  encrypt := [("name", { secret := some "key", vector := some "0123456789abcdef" })]
  encryption := none

/-- Names are bound among the values, the second row is given the other way round, and a row with a
column of its own is refused. -/
theorem aligned_fragment_people :
    (∃ text b', ((people [[("name", .text "u.id"), ("id", .null)]]).fragment
          (.outermost .mysql none)).sql .mysql {} = (.ok text, b')
      ∧ b'.values = [.identifier "people", .identifier "id", .identifier "name", .int 1,
        .text "now", .text "key", .text "0123456789abcdef", .text "u.id", .text "key",
        .text "0123456789abcdef"]
      ∧ ∃ first, (people [[("name", .text "u.id"), ("id", .null)]]).Inserts
        (.outermost .mysql none) first {} text b')
    ∧ (∃ e b', ((people [[("name", .text "u.id"), ("age", .null)]]).fragment
        (.outermost .mysql none)).sql .mysql {} = (.error e, b'))
    ∧ ((people [[("id", .null), ("name", .text "u.id")]]).fragment (.outermost .mysql none)).sql
        .mysql {}
      = ((people [[("name", .text "u.id"), ("id", .null)]]).fragment
        (.outermost .mysql none)).sql .mysql {} := by
  have hsql : ∃ text b', ((people [[("name", .text "u.id"), ("id", .null)]]).fragment
      (.outermost .mysql none)).sql .mysql {} = (.ok text, b')
        ∧ b'.values = [.identifier "people", .identifier "id", .identifier "name", .int 1,
          .text "now", .text "key", .text "0123456789abcdef", .text "u.id", .text "key",
          .text "0123456789abcdef"] := ⟨_, _, rfl, rfl⟩
  refine ⟨?_, ?_, ?_⟩
  · obtain ⟨text, b', hsql, hvalues⟩ := hsql
    obtain ⟨first, rest, -, -, hinserts⟩ := (aligned_fragment
      (people [[("name", .text "u.id"), ("id", .null)]]) (.outermost .mysql none) {} rfl
      (by decide)).1 _ _ hsql
    exact ⟨text, b', hsql, hvalues, first, hinserts⟩
  · exact (aligned_fragment (people [[("name", .text "u.id"), ("age", .null)]])
      (.outermost .mysql none) {} rfl (by decide)).2.1 _ _ rfl
      ⟨[("name", .text "u.id"), ("age", .null)], by simp [people], "age", by decide⟩
  · exact (aligned_fragment (people [[("name", .text "u.id"), ("id", .null)]])
      (.outermost .mysql none) {} rfl (by decide)).2.2 _ _ _ rfl
      (.cons (List.Perm.swap _ _ _) .nil)

end Write

end QueryTree
