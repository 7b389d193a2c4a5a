import QueryTree.Proofs.Binding.Stretch
import QueryTree.Proofs.Cipher.Precedence
import QueryTree.Proofs.Statement.Alignment
import QueryTree.Proofs.Statement.Opacity

/-!
# Encrypted columns

A statement that writes may name columns to encrypt. It is the statement that encrypts nothing, with
the items of these columns passed through the cipher and everything else as it was.

* `Write.layout`: a statement that writes, as a stretch made of an item for each column and value.
* `Write.columns`, `Write.itemColumns`: the columns of a statement, and those of its items.
* `Cipher.Key.encrypted`, `Cipher.Key.bound`: an item passed through the cipher, and what is bound
  after its values.
* `Write.Shaped`: the statements that are refused for the sake of an item only.
* `Write.stretch_fragment`: such a statement is laid out from the stretches of its cells.
* `Write.items_encrypted`: a statement against the one that encrypts nothing.
-/

namespace QueryTree

open Fragment (word literal spaced commas words parens call hurdles stretch_append stretch_path
  stretch_parens stretch_spaced stretch_commas stretch_words stretch_call stretch_cast plain_spaced
  plain_commas plain_call plain_cast)
open Cipher (Settings Key)

/-- A fragment that compiles has no errors to get over. -/
theorem Fragment.no_error_of_sql {dialect : Dialect} {f : Fragment} {b b' : Bindings}
    {text : String} (h : f.sql dialect b = (.ok text, b')) (e : CompileError) :
    Hurdle.error e ∉ f.hurdles := by
  obtain ⟨ts, hrun, rfl⟩ := sql_ok.1 h
  rcases f.run_or_stop dialect b with ⟨mode, hpass, -⟩ | ⟨e, -, hstops⟩
  · exact Hurdle.not_mem_of_passAll hpass e
  · rw [hrun] at hstops
    cases hstops

/-! ## Items passed through the cipher -/

namespace Cipher.Key

/-- An item passed through the cipher of a dialect. -/
def encrypted (key : Key) (dialect : Dialect) (item : Stretch) : Stretch :=
  match dialect with
  | .mysql =>
    .call "AES_ENCRYPT"
      (item :: .call "UNHEX" [.call "SHA2" [.bound (.text key.secret),
          .word (Decimal.natText key.digest)]]
        :: key.vector.toList.map fun vector => .bound (.text vector))
  | .postgresql =>
    .call "pgp_sym_encrypt"
      [item.cast ["TEXT"], .bound (.text key.secret),
        .literal ("cipher-algo=" ++ key.mode.cipher)]
  | .sqlite => item

/-- What is bound after the values of an item that is encrypted: the secret and, if the vector is
not left to the engine, the vector. -/
def bound (key : Key) : Dialect → List Value
  | .mysql => .text key.secret :: key.vector.toList.map Value.text
  | .postgresql => [.text key.secret]
  | .sqlite => []

theorem values_encrypted (key : Key) (dialect : Dialect) (item : Stretch) :
    (key.encrypted dialect item).values = item.values ++ key.bound dialect := by
  cases dialect with
  | mysql =>
      cases hvector : key.vector <;>
        simp [encrypted, bound, hvector, Stretch.call, Stretch.commas, Stretch.word, Stretch.bound]
  | postgresql =>
      simp [encrypted, bound, Stretch.call, Stretch.cast, Stretch.commas, Stretch.spaced,
        Stretch.words, Stretch.word, Stretch.literal, Stretch.bound]
  | sqlite => simp [encrypted, bound]

/-- A fragment passed through a cipher amounts to its stretch passed through the cipher. -/
theorem stretch_apply (key : Key) {dialect : Dialect} (hd : dialect ≠ .sqlite) {f : Fragment}
    (hf : f.Plain dialect) :
    (key.apply dialect .encrypt f).stretch dialect = key.encrypted dialect (f.stretch dialect) := by
  cases dialect with
  | mysql =>
      have hplain : ∀ g ∈ [f, hashedSecret key] ++ key.vector.toList.map Fragment.secret,
          g.Plain .mysql := by
        have hdigest : (call "SHA2" [.secret key.secret,
            word (Decimal.natText key.digest)]).Plain .mysql :=
          plain_call "SHA2" (by simp)
        have hhashed : (hashedSecret key).Plain .mysql :=
          ⟨rfl, plain_call "UNHEX" (by simpa using hdigest)⟩
        simp [hf, hhashed]
      rw [apply, stretch_call _ hplain, List.map_append, List.map_map]
      rfl
  | postgresql =>
      rw [apply, stretch_call _ (by simp [plain_cast hf, literal, Fragment.Plain]),
        List.map_cons, stretch_cast hf]
      rfl
  | sqlite => exact absurd rfl hd

end Cipher.Key

/-! ## Statements laid out -/

/-- A clause after what stands before it. -/
def Stretch.clause (keywords : List String) (body : Stretch) : Stretch :=
  .fixed [.space] ++ .spaced [.words keywords, body]

theorem stretch_clause {dialect : Dialect} (keywords : List String) {f : Fragment}
    (hf : f.Plain dialect) :
    (clause keywords f).stretch dialect = .clause keywords (f.stretch dialect) := by
  have hparts : ∀ g ∈ [words keywords, f], g.Plain dialect := by simp [hf]
  rw [clause, stretch_append (plain_spaced hparts), stretch_spaced hparts, List.map_cons,
    stretch_words]
  rfl

namespace Write

/-- The statement with nothing encrypted. -/
def unencrypted (write : Write) : Write :=
  { write with encrypt := [] }

/-- The scope in which the values of a statement are written. -/
def scope (write : Write) (outer : Scope) : Scope :=
  outer.target write.table (if write.filter.isSome then write.alias? else none) write.encryption

/-- The columns of the data and of what is set in rows that are there already. -/
def columns (write : Write) : List String :=
  write.rows.flatMap Row.columns ++ Row.columns write.upsert

/-- The columns that items are written for. The first row names them for all rows. -/
def itemColumns (write : Write) : List String :=
  (write.rows.headD []).columns ++ Row.columns write.upsert

section Layout

variable (dialect : Dialect) (item : String → Expr → Stretch)

/-- Columns set to their items. -/
def setLayout (row : Row) : Stretch :=
  .commas (row.map fun (column, e) => .spaced [.path dialect column, .word "=", item column e])

/-- The items of a row, under columns. -/
def tupleLayout (columns : List String) (row : Row) : Stretch :=
  .parens (.commas (columns.filterMap fun column => (row.lookup column).map (item column)))

/-- What happens to rows that are there already. -/
def upsertLayout (write : Write) : Stretch :=
  if write.upsert.isEmpty then .empty
  else
    match dialect with
    | .mysql => .clause ["ON", "DUPLICATE", "KEY", "UPDATE"] (setLayout dialect item write.upsert)
    | .postgresql | .sqlite =>
      .clause ["ON", "CONFLICT"] (.spaced [.parens (.commas (write.indexes.map (.path dialect))),
        .word "DO", .word "UPDATE", .word "SET", setLayout dialect item write.upsert])

/-- An insertion: the table, the columns of the first row, and all rows under them. -/
def insertLayout (write : Write) : Stretch :=
  let columns := write.rows.headD [] |>.columns
  .spaced [.word "INSERT", .word "INTO", .path dialect write.table,
      .parens (.commas (columns.map (.path dialect))), .word "VALUES",
      .commas (write.rows.map (tupleLayout item columns))]
    ++ upsertLayout dialect item write

end Layout

/-- An update: the table, what its row sets, and the condition. -/
def updateLayout (write : Write) (outer : Scope) (item : String → Expr → Stretch) : Stretch :=
  .spaced [.word "UPDATE", (tableFragment write.table write.alias?).stretch outer.dialect,
      .word "SET", setLayout outer.dialect item (write.rows.headD [])]
    ++ (conditionClause "WHERE" write.junction
      (filterFragments write.junction (write.scope outer) write.filter)).stretch outer.dialect

/-- A statement that writes, from an item for each column and value. -/
def layout (write : Write) (outer : Scope) (item : String → Expr → Stretch) : Stretch :=
  if write.filter.isSome then write.updateLayout outer item
  else insertLayout outer.dialect item write

/-- A statement of a shape that is not refused: an update by one row, or an insertion of rows of the
same columns. -/
inductive Shaped (write : Write) (dialect : Dialect) : Prop
  | update (hfilter : write.filter.isSome = true) (row : Row) (hrows : write.rows = [row])
      (hupsert : write.upsert = [])
  | insertion (hfilter : write.filter.isSome = false) (first : Row) (rest : List Row)
      (hrows : write.rows = first :: rest)
      (heven : ∀ row ∈ write.rows, row.length = first.length
        ∧ ∀ column ∈ first.columns, (row.lookup column).isSome)
      (hupsert : write.upsert ≠ [] → dialect ≠ .mysql → write.indexes ≠ [])

variable {write : Write} {outer scope : Scope} {dialect : Dialect}

theorem Shaped.of_unencrypted (h : write.unencrypted.Shaped dialect) : write.Shaped dialect := by
  cases h with
  | update hfilter row hrows hupsert => exact .update hfilter row hrows hupsert
  | insertion hfilter first rest hrows heven hupsert =>
      exact .insertion hfilter first rest hrows heven hupsert

/-! ## Cells in statements -/

/-- The cells of a row, under columns. -/
def cells (write : Write) (scope : Scope) (columns : List String) (row : Row) : List Fragment :=
  columns.filterMap fun column => (row.lookup column).map (write.cell scope column)

theorem tuple_eq {first row : Row} (hlength : row.length = first.length)
    (heven : ∀ column ∈ first.columns, (row.lookup column).isSome) (index : Nat) :
    write.tuple scope first index row = parens (commas (write.cells scope first.columns row)) := by
  rw [tuple, if_pos hlength]
  refine congrArg (fun fs => parens (commas fs)) ?_
  -- A column at a time, whatever the number of columns is.
  clear hlength
  induction first with
  | nil => rfl
  | cons pair first ih =>
      obtain ⟨column, e⟩ := pair
      rw [Row.columns, List.map_cons, List.forall_mem_cons] at heven
      obtain ⟨found, hfound⟩ := Option.isSome_iff_exists.1 heven.1
      rw [List.map_cons, ih heven.2]
      simp [cells, Row.columns, hfound]

theorem mapIdx_eq_map (rows : List Row) {f : Nat → Row → Fragment} {g : Row → Fragment}
    (h : ∀ row ∈ rows, ∀ index, f index row = g row) : rows.mapIdx f = rows.map g := by
  induction rows generalizing f with
  | nil => rfl
  | cons row rows ih =>
      rw [List.forall_mem_cons] at h
      rw [List.mapIdx_cons, List.map_cons, h.1, ih fun row hrow index => h.2 row hrow (index + 1)]

/-- An insertion of rows of the same columns has a tuple of cells for each row. -/
theorem insertFragment_of_even {first : Row} {rest : List Row} (hrows : write.rows = first :: rest)
    (heven : ∀ row ∈ write.rows, row.length = first.length
      ∧ ∀ column ∈ first.columns, (row.lookup column).isSome) :
    write.insertFragment outer = write.insertion outer first (write.rows.map fun row =>
      parens (commas (write.cells (outer.target write.table none write.encryption) first.columns
        row))) := by
  rw [insertFragment_eq hrows]
  congr 1
  refine mapIdx_eq_map _ fun row hrow index => ?_
  exact tuple_eq (heven row hrow).1 (heven row hrow).2 index

theorem hurdles_assignments (write : Write) (scope : Scope) (row : Row) :
    (write.assignments scope row).hurdles
      = row.flatMap fun (column, e) => (write.cell scope column e).hurdles := by
  simp [assignments, commas, equals, spaced, hurdles, List.flatMap_map]

theorem hurdles_insertion (write : Write) (outer : Scope) (first : Row) (tuples : List Fragment) :
    (write.insertion outer first tuples).hurdles = tuples.flatMap hurdles
      ++ (write.upsertFragment (outer.target write.table none write.encryption)).hurdles := by
  simp [insertion, spaced, commas, hurdles, List.flatMap_map]

theorem hurdles_update {row : Row} (hrows : write.rows = [row]) (hupsert : write.upsert = []) :
    (write.updateFragment outer).hurdles
      = (write.assignments (outer.target write.table write.alias? write.encryption) row).hurdles
        ++ (conditionClause "WHERE" write.junction (filterFragments write.junction
          (outer.target write.table write.alias? write.encryption) write.filter)).hurdles := by
  have htable : (tableFragment write.table write.alias?).hurdles = [] := by
    cases write.alias? <;> simp [tableFragment, spaced, hurdles]
  simp [updateFragment, hrows, hupsert, spaced, htable]

/-- A tuple without errors has a value for each of the columns, and no others. -/
theorem even_of_tuple {first row : Row} (index : Nat)
    (h : ∀ e, Hurdle.error e ∉ (write.tuple scope first index row).hurdles) :
    row.length = first.length ∧ ∀ column ∈ first.columns, (row.lookup column).isSome := by
  unfold tuple at h
  split at h
  · next hlength =>
      refine ⟨hlength, fun column hcolumn => ?_⟩
      obtain ⟨pair, hpair, rfl⟩ := List.mem_map.1 hcolumn
      cases hlookup : row.lookup pair.1 with
      | some e => rfl
      | none =>
          refine absurd ?_ (h (.invalid ("save.data[" ++ Decimal.natText index ++ "]") .unevenRow))
          rw [Fragment.hurdles_parens, commas, Fragment.hurdles_join]
          refine List.mem_flatMap.2 ⟨_, List.mem_map.2 ⟨pair, hpair, rfl⟩, ?_⟩
          simp only [hlookup]
          exact List.mem_singleton_self _
  · exact absurd (List.mem_singleton_self _) (h _)

theorem upsertFragment_of_no_indexes (hupsert : write.upsert ≠ []) (hd : scope.dialect ≠ .mysql)
    (hindexes : write.indexes = []) :
    write.upsertFragment scope = .fail (.missing "indexes" "save.upsert") := by
  have hsome : write.upsert.isEmpty = false := by simpa using hupsert
  unfold upsertFragment
  cases hdialect : scope.dialect with
  | mysql => exact absurd hdialect hd
  | postgresql | sqlite => simp [hsome, hindexes]

theorem hurdles_upsertFragment (hupsert : write.upsert ≠ [])
    (hindexes : scope.dialect ≠ .mysql → write.indexes ≠ []) :
    (write.upsertFragment scope).hurdles = (write.assignments scope write.upsert).hurdles := by
  have hsome : write.upsert.isEmpty = false := by simpa using hupsert
  unfold upsertFragment
  cases hdialect : scope.dialect with
  | mysql => simp [hsome, clause, spaced, hurdles]
  | postgresql | sqlite =>
      have hindexes := hindexes (by simp [hdialect])
      simp [hsome, hindexes, clause, spaced, commas, hurdles, List.flatMap_map]

/-- **A statement without errors is of a shape that is not refused.** -/
theorem shaped_of_hurdles (h : ∀ e, Hurdle.error e ∉ (write.fragment outer).hurdles) :
    write.Shaped outer.dialect := by
  cases hfilter : write.filter.isSome with
  | true =>
      rw [fragment, hfilter, if_pos rfl] at h
      unfold updateFragment at h
      split at h
      · next row hrows =>
          split at h
          · next hupsert => exact .update hfilter row hrows (List.isEmpty_iff.1 hupsert)
          · exact absurd (List.mem_singleton_self _) (h _)
      · exact absurd (List.mem_singleton_self _) (h _)
  | false =>
      rw [fragment, hfilter, if_neg Bool.false_ne_true] at h
      cases hrows : write.rows with
      | nil =>
          unfold insertFragment at h
          rw [hrows] at h
          exact absurd (List.mem_singleton_self _) (h _)
      | cons first rest =>
          rw [insertFragment_eq hrows, hurdles_insertion] at h
          refine .insertion hfilter first rest hrows (fun row hrow => ?_)
            fun hupsert hdialect hindexes => ?_
          · obtain ⟨index, hindex, rfl⟩ := List.getElem_of_mem hrow
            have htuple : ∀ e, Hurdle.error e
                ∉ (write.tuple (outer.target write.table none write.encryption) first index
                  write.rows[index]).hurdles := fun e he =>
              h e (List.mem_append_left _
                (List.mem_flatMap.2 ⟨_, List.mem_mapIdx.2 ⟨index, hindex, rfl⟩, he⟩))
            exact even_of_tuple index htuple
          · refine h (.missing "indexes" "save.upsert") (List.mem_append_right _ ?_)
            rw [upsertFragment_of_no_indexes hupsert (by simpa using hdialect) hindexes]
            exact List.mem_singleton_self _

theorem subset_columns_of_lookup {first row : Row}
    (heven : ∀ column ∈ first.columns, (row.lookup column).isSome) :
    first.columns ⊆ row.columns := by
  intro column hcolumn
  obtain ⟨e, he⟩ := Option.isSome_iff_exists.1 (heven column hcolumn)
  exact List.mem_map.2 ⟨(column, e), mem_of_lookup he, rfl⟩

/-- Items are written for all columns, unless a row names one of them twice. -/
theorem mem_itemColumns_iff (hshaped : write.Shaped dialect)
    (hdistinct : ∀ row ∈ write.rows, row.columns.Nodup) (column : String) :
    column ∈ write.itemColumns ↔ column ∈ write.columns := by
  cases hshaped with
  | update hfilter row hrows hupsert => simp [itemColumns, columns, hrows]
  | insertion hfilter first rest hrows heven hupsert =>
      have hsame : ∀ row ∈ write.rows, column ∈ row.columns ↔ column ∈ first.columns := by
        intro row hrow
        obtain ⟨hlength, hlookup⟩ := heven row hrow
        exact mem_columns_iff_of_subset (hdistinct first (by simp [hrows])) hlength
          (subset_columns_of_lookup hlookup) column
      have hdata : column ∈ write.rows.flatMap Row.columns ↔ column ∈ first.columns := by
        rw [List.mem_flatMap]
        constructor
        · rintro ⟨row, hrow, hcolumn⟩
          exact (hsame row hrow).1 hcolumn
        · exact fun hcolumn => ⟨first, by simp [hrows], hcolumn⟩
      rw [itemColumns, columns, List.mem_append, List.mem_append, hdata, hrows, List.headD_cons]

/-- Each column that an item is written for has a cell that has to be got over. -/
theorem exists_cell (hshaped : write.Shaped outer.dialect) {column : String}
    (hcolumn : column ∈ write.itemColumns) :
    ∃ e, (write.cell (write.scope outer) column e).hurdles ⊆ (write.fragment outer).hurdles := by
  have hassigned : ∀ (scope : Scope) (row : Row), column ∈ row.columns →
      ∃ e, (write.cell scope column e).hurdles ⊆ (write.assignments scope row).hurdles := by
    intro scope row hmem
    obtain ⟨⟨column, e⟩, hpair, rfl⟩ := List.mem_map.1 hmem
    rw [hurdles_assignments]
    exact ⟨e, fun x hx => List.mem_flatMap.2 ⟨_, hpair, hx⟩⟩
  cases hshaped with
  | update hfilter row hrows hupsert =>
      have hmem : column ∈ row.columns := by
        simpa [itemColumns, hrows, hupsert, Row.columns] using hcolumn
      obtain ⟨e, he⟩ := hassigned (write.scope outer) row hmem
      refine ⟨e, List.Subset.trans he ?_⟩
      rw [fragment, if_pos hfilter, hurdles_update hrows hupsert]
      simp only [Write.scope, if_pos hfilter]
      exact List.subset_append_left _ _
  | insertion hfilter first rest hrows heven hupsert =>
      have hscope : write.scope outer = outer.target write.table none write.encryption := by
        simp [Write.scope, hfilter]
      rw [fragment, hfilter, if_neg Bool.false_ne_true, insertFragment_of_even hrows heven,
        hurdles_insertion, hscope]
      rw [itemColumns, hrows, List.headD_cons] at hcolumn
      rcases List.mem_append.1 hcolumn with hfirst | hset
      · have hrow : first ∈ write.rows := by simp [hrows]
        obtain ⟨e, he⟩ := Option.isSome_iff_exists.1 ((heven first hrow).2 column hfirst)
        refine ⟨e, fun x hx => List.mem_append_left _ (List.mem_flatMap.2 ⟨_,
          List.mem_map.2 ⟨first, hrow, rfl⟩, ?_⟩)⟩
        rw [Fragment.hurdles_parens, commas, Fragment.hurdles_join]
        exact List.mem_flatMap.2 ⟨_, List.mem_filterMap.2 ⟨column, hfirst, by rw [he]; rfl⟩, hx⟩
      · obtain ⟨e, he⟩ := hassigned (outer.target write.table none write.encryption) _ hset
        have hsome : write.upsert ≠ [] := by
          intro hnil
          simp [hnil, Row.columns] at hset
        refine ⟨e, List.Subset.trans ?_ (List.subset_append_right _ _)⟩
        rwa [hurdles_upsertFragment hsome fun hd => hupsert hsome (by simpa using hd)]

/-! ## Stretches of statements -/

theorem stretch_assignments (hd : scope.dialect = dialect) (write : Write) (row : Row) :
    (write.assignments scope row).stretch dialect
      = setLayout dialect (fun column e => (write.cell scope column e).stretch dialect) row := by
  have hcell : ∀ column e, (write.cell scope column e).Plain dialect :=
    fun column e => (phrase_cell hd write column e).plain
  have hset : ∀ column e, (equals (.path column) (write.cell scope column e)).stretch dialect
      = .spaced [.path dialect column, .word "=", (write.cell scope column e).stretch dialect] := by
    intro column e
    rw [equals, stretch_spaced (by simp [hcell]), List.map_cons, stretch_path]
    rfl
  have hplain : ∀ f ∈ row.map fun (column, e) => equals (.path column) (write.cell scope column e),
      f.Plain dialect := by
    intro f hf
    obtain ⟨⟨column, e⟩, -, rfl⟩ := List.mem_map.1 hf
    exact plain_spaced (by simp [hcell])
  rw [assignments, stretch_commas hplain, List.map_map, setLayout]
  exact congrArg Stretch.commas (List.map_congr_left fun (column, e) _ => hset column e)

theorem plain_cells (hd : scope.dialect = dialect) (columns : List String) (row : Row) :
    ∀ f ∈ write.cells scope columns row, f.Plain dialect := by
  intro f hf
  obtain ⟨column, -, hcell⟩ := List.mem_filterMap.1 hf
  obtain ⟨e, -, rfl⟩ := Option.map_eq_some_iff.1 hcell
  exact (phrase_cell hd write column e).plain

theorem stretch_cells (hd : scope.dialect = dialect) (columns : List String) (row : Row) :
    (parens (commas (write.cells scope columns row))).stretch dialect
      = tupleLayout (fun column e => (write.cell scope column e).stretch dialect) columns row := by
  rw [stretch_parens, stretch_commas (plain_cells hd columns row), cells, List.map_filterMap,
    tupleLayout]
  simp only [Option.map_map]
  rfl

theorem stretch_paths (names : List String) :
    (parens (commas (names.map Fragment.path))).stretch dialect
      = .parens (.commas (names.map (.path dialect))) := by
  rw [stretch_parens, stretch_commas (by simp), List.map_map]
  exact congrArg (fun parts => Stretch.parens (.commas parts))
    (List.map_congr_left fun p _ => stretch_path p)

theorem stretch_upsertFragment (hd : scope.dialect = dialect)
    (hindexes : write.upsert ≠ [] → dialect ≠ .mysql → write.indexes ≠ []) :
    (write.upsertFragment scope).stretch dialect
      = upsertLayout dialect (fun column e => (write.cell scope column e).stretch dialect)
        write := by
  have hset : (write.assignments scope write.upsert).Plain dialect :=
    (phrase_assignments hd write write.upsert).plain
  have hnames : (parens (commas (write.indexes.map Fragment.path))).Plain dialect :=
    plain_commas (by simp)
  have hparts : ∀ f ∈ [parens (commas (write.indexes.map Fragment.path)), "DO", "UPDATE", "SET",
      write.assignments scope write.upsert], f.Plain dialect := by
    simpa [hset] using hnames
  have hconflict : (clause ["ON", "CONFLICT"] (spaced
        [parens (commas (write.indexes.map Fragment.path)), "DO", "UPDATE", "SET",
          write.assignments scope write.upsert])).stretch dialect
      = .clause ["ON", "CONFLICT"] (.spaced [.parens (.commas (write.indexes.map (.path dialect))),
        .word "DO", .word "UPDATE", .word "SET",
        setLayout dialect (fun column e => (write.cell scope column e).stretch dialect)
          write.upsert]) := by
    rw [stretch_clause _ (plain_spaced hparts), stretch_spaced hparts]
    simp only [List.map_cons, List.map_nil, stretch_paths, stretch_assignments hd]
    rfl
  unfold upsertFragment upsertLayout
  by_cases hupsert : write.upsert = []
  · simp only [hupsert, List.isEmpty_nil, if_true]
    rfl
  · have hsome : write.upsert.isEmpty = false := by simpa using hupsert
    simp only [hsome, Bool.false_eq_true, if_false, hd]
    cases dialect with
    | mysql => rw [stretch_clause _ hset, stretch_assignments hd]
    | postgresql | sqlite =>
        have hsome : write.indexes.isEmpty = false := by simpa using hindexes hupsert (by simp)
        simp only [hsome, Bool.false_eq_true, if_false, hconflict]

/-- **A statement of a shape that is not refused is laid out from the stretches of its cells.** -/
theorem stretch_fragment (hshaped : write.Shaped outer.dialect) :
    (write.fragment outer).stretch outer.dialect
      = write.layout outer fun column e =>
        (write.cell (write.scope outer) column e).stretch outer.dialect := by
  have hd : (write.scope outer).dialect = outer.dialect := by simp [Write.scope]
  have hset : ∀ row, (write.assignments (write.scope outer) row).Plain outer.dialect :=
    fun row => (phrase_assignments hd write row).plain
  cases hshaped with
  | update hfilter row hrows hupsert =>
      have hscope : outer.target write.table write.alias? write.encryption = write.scope outer := by
        simp [Write.scope, hfilter]
      have htable : (tableFragment write.table write.alias?).Plain outer.dialect :=
        (phrase_tableFragment write.table write.alias?).plain
      have hcondition : (conditionClause "WHERE" write.junction (filterFragments write.junction
          (write.scope outer) write.filter)).Plain outer.dialect :=
        (tail_conditionClause (by simp [commonWords]) _ (phrases_filterFragments hd _ _)).plain
      simp only [fragment, layout, hfilter, if_true, updateFragment, updateLayout, hrows, hupsert,
        List.isEmpty_nil, hscope, List.headD_cons]
      rw [stretch_append hcondition, stretch_spaced (by simp [htable, hset])]
      simp only [List.map_cons, List.map_nil, stretch_assignments hd]
      rfl
  | insertion hfilter first rest hrows heven hupsert =>
      have hscope : outer.target write.table none write.encryption = write.scope outer := by
        simp [Write.scope, hfilter]
      let tuples := write.rows.map fun row =>
        parens (commas (write.cells (write.scope outer) first.columns row))
      have htuples : ∀ f ∈ tuples, f.Plain outer.dialect := by
        intro f hf
        obtain ⟨row, -, rfl⟩ := List.mem_map.1 hf
        exact plain_commas (plain_cells hd first.columns row)
      have hcolumns : (parens (commas (first.columns.map Fragment.path))).Plain outer.dialect :=
        plain_commas (by simp)
      have htail : (write.upsertFragment (write.scope outer)).Plain outer.dialect :=
        (tail_upsertFragment hd write).plain
      rw [fragment, layout, hfilter, if_neg Bool.false_ne_true, if_neg Bool.false_ne_true,
        insertFragment_of_even hrows heven, insertion, hscope, stretch_append htail,
        stretch_spaced (by simpa [hcolumns] using plain_commas htuples),
        stretch_upsertFragment hd hupsert, insertLayout]
      have hrowsLayout : (commas tuples).stretch outer.dialect
          = .commas (write.rows.map (tupleLayout (fun column e =>
            (write.cell (write.scope outer) column e).stretch outer.dialect) first.columns)) := by
        rw [stretch_commas htuples, List.map_map]
        exact congrArg Stretch.commas
          (List.map_congr_left fun row _ => stretch_cells hd first.columns row)
      have hfirst : (write.rows.headD []).columns = first.columns := by rw [hrows]; rfl
      simp only [List.map_cons, List.map_nil, stretch_path, stretch_paths, hfirst]
      rw [← hrowsLayout]
      rfl

/-! ## Items that are not encrypted -/

theorem setLayout_congr {item item' : String → Expr → Stretch} {row : Row}
    (h : ∀ column ∈ row.columns, ∀ e, item column e = item' column e) :
    setLayout dialect item row = setLayout dialect item' row := by
  refine congrArg Stretch.commas (List.map_congr_left fun (column, e) hpair => ?_)
  exact congrArg (fun s => Stretch.spaced [.path dialect column, .word "=", s])
    (h column (List.mem_map_of_mem hpair) e)

theorem tupleLayout_congr {item item' : String → Expr → Stretch} {columns : List String}
    (h : ∀ column ∈ columns, ∀ e, item column e = item' column e) (row : Row) :
    tupleLayout item columns row = tupleLayout item' columns row := by
  refine congrArg (fun parts => Stretch.parens (.commas parts))
    (List.filterMap_congr fun column hcolumn => ?_)
  cases row.lookup column with
  | none => rfl
  | some e => rw [Option.map_some, Option.map_some, h column hcolumn e]

/-- A layout depends on the items of the columns that items are written for only. -/
theorem layout_congr {item item' : String → Expr → Stretch}
    (h : ∀ column ∈ write.itemColumns, ∀ e, item column e = item' column e) :
    write.layout outer item = write.layout outer item' := by
  have hhead := fun column hcolumn => h column (List.mem_append_left _ hcolumn)
  have hupsert : setLayout outer.dialect item write.upsert
      = setLayout outer.dialect item' write.upsert :=
    setLayout_congr fun column hcolumn => h column (List.mem_append_right _ hcolumn)
  have htuples : write.rows.map (tupleLayout item (write.rows.headD []).columns)
      = write.rows.map (tupleLayout item' (write.rows.headD []).columns) :=
    List.map_congr_left fun row _ => tupleLayout_congr hhead row
  simp only [layout, updateLayout, insertLayout, upsertLayout, setLayout_congr hhead, hupsert,
    htuples]

theorem cell_of_unnamed {column : String} (h : write.encrypt.lookup column = none) (e : Expr) :
    write.cell scope column e = write.unencrypted.cell scope column e := by
  rw [cell, h]
  rfl

theorem assignments_of_unnamed {row : Row}
    (h : ∀ column ∈ row.columns, write.encrypt.lookup column = none) :
    write.assignments scope row = write.unencrypted.assignments scope row := by
  refine congrArg commas (List.map_congr_left fun (column, e) hpair => ?_)
  exact congrArg (equals (.path column)) (cell_of_unnamed (h column (List.mem_map_of_mem hpair)) e)

theorem tuple_of_unnamed {first : Row}
    (h : ∀ column ∈ first.columns, write.encrypt.lookup column = none) :
    write.tuple scope first = write.unencrypted.tuple scope first := by
  funext index row
  unfold tuple
  congr 3
  refine List.map_congr_left fun (column, _) hpair => ?_
  dsimp only
  split
  · exact cell_of_unnamed (h column (List.mem_map_of_mem hpair)) _
  · rfl

/-- A statement that encrypts none of its items is the one that encrypts nothing. -/
theorem fragment_of_unnamed
    (h : ∀ column ∈ write.itemColumns, write.encrypt.lookup column = none) :
    write.fragment outer = write.unencrypted.fragment outer := by
  have hhead : ∀ {first : Row} {rest : List Row}, write.rows = first :: rest →
      ∀ column ∈ first.columns, write.encrypt.lookup column = none := by
    intro first rest hrows column hcolumn
    exact h column (List.mem_append_left _ (by rwa [hrows]))
  have hset : ∀ scope, write.upsertFragment scope = write.unencrypted.upsertFragment scope := by
    intro scope
    unfold upsertFragment
    rw [assignments_of_unnamed fun column hcolumn => h column (List.mem_append_right _ hcolumn)]
    rfl
  have hupdate : write.updateFragment outer = write.unencrypted.updateFragment outer := by
    unfold updateFragment
    rw [show write.unencrypted.rows = write.rows from rfl]
    split
    · next row hrows =>
        simp only [assignments_of_unnamed (hhead hrows)]
        rfl
    · rfl
  have hinsert : write.insertFragment outer = write.unencrypted.insertFragment outer := by
    cases hrows : write.rows with
    | nil => simp [insertFragment, unencrypted, hrows]
    | cons first rest =>
        have hrows' : write.unencrypted.rows = first :: rest := hrows
        rw [insertFragment_eq hrows, insertFragment_eq hrows', insertion, insertion,
          tuple_of_unnamed (hhead hrows), hset]
        rfl
  rw [fragment, fragment, hupdate, hinsert]
  rfl

/-! ## Cells that are encrypted -/

theorem plain_plainCell (write : Write) (hd : scope.dialect = dialect) (column : String)
    (e : Expr) : (plainCell scope column e).Plain dialect :=
  (phrase_cell hd write.unencrypted column e).plain

theorem cell_of_key {column : String} {settings : Settings} {key : Key}
    (hlookup : write.encrypt.lookup column = some settings)
    (hkey : scope.resolve (some settings) = .ok key) (e : Expr) :
    write.cell scope column e = key.apply scope.dialect .encrypt (plainCell scope column e) := by
  simp only [cell, hlookup, Scope.cipher, hkey]

/-- A cell that is to be encrypted has a key, if it has no errors. -/
theorem exists_key {column : String} {e : Expr} {settings : Settings}
    (hlookup : write.encrypt.lookup column = some settings)
    (h : ∀ e', Hurdle.error e' ∉ (write.cell scope column e).hurdles) :
    ∃ key, scope.resolve (some settings) = .ok key := by
  cases hkey : scope.resolve (some settings) with
  | ok key => exact ⟨key, rfl⟩
  | error e' =>
      simp only [cell, hlookup, Scope.cipher, hkey] at h
      exact absurd (List.mem_append_right _ (List.mem_singleton_self _)) (h e')

/-- Where there is no cipher, a cell that is to be encrypted has an error. -/
theorem error_of_named (hd : scope.dialect = .sqlite) {column : String} {settings : Settings}
    (hlookup : write.encrypt.lookup column = some settings) (e : Expr) :
    ∃ e', Hurdle.error e' ∈ (write.cell scope column e).hurdles := by
  by_contra hnone
  obtain ⟨key, hkey⟩ := exists_key hlookup fun e' he' => hnone ⟨e', he'⟩
  refine hnone ⟨.unsupported "encrypt" .sqlite, ?_⟩
  rw [cell_of_key hlookup hkey, hd]
  exact List.mem_append_right _ (List.mem_singleton_self _)

theorem isSome_lookup_iff {column : String} :
    (write.encrypt.lookup column).isSome ↔ column ∈ write.encrypt.map Prod.fst := by
  rw [List.lookup_isSome_iff, List.mem_map]
  constructor
  · rintro ⟨pair, hpair, heq⟩
    exact ⟨pair, hpair, (beq_iff_eq.1 heq).symm⟩
  · rintro ⟨pair, hpair, rfl⟩
    exact ⟨pair, hpair, beq_self_eq_true pair.1⟩

/-- In a statement without errors the columns whose items are to be encrypted resolve to keys. -/
theorem exists_keyOf (hshaped : write.Shaped outer.dialect)
    (h : ∀ e, Hurdle.error e ∉ (write.fragment outer).hurdles) :
    ∃ keyOf : String → Key, ∀ column ∈ write.itemColumns, ∀ settings,
      write.encrypt.lookup column = some settings →
        (write.scope outer).resolve (some settings) = .ok (keyOf column) := by
  have hkeys : ∀ column, ∃ key, ∀ settings, column ∈ write.itemColumns →
      write.encrypt.lookup column = some settings →
        (write.scope outer).resolve (some settings) = .ok key := by
    intro column
    by_cases hcolumn : column ∈ write.itemColumns
    · obtain ⟨e, hsubset⟩ := exists_cell hshaped hcolumn
      cases hlookup : write.encrypt.lookup column with
      | none => exact ⟨⟨default, "", none, 0⟩, nofun⟩
      | some settings =>
          obtain ⟨key, hkey⟩ := exists_key hlookup fun e' he' => h e' (hsubset he')
          refine ⟨key, fun settings' _ hsame => ?_⟩
          rwa [← Option.some.inj hsame]
    · exact ⟨⟨default, "", none, 0⟩, fun _ hmem => absurd hmem hcolumn⟩
  choose keyOf hkeyOf using hkeys
  exact ⟨keyOf, fun column hcolumn settings => hkeyOf column settings hcolumn⟩

/-- A cell is its item, passed through the cipher if its column is to be encrypted. -/
theorem stretch_cell {d : Dialect} (hd : scope.dialect = d) (hne : d ≠ .sqlite) {column : String}
    {key : Key} (hkey : ∀ settings, write.encrypt.lookup column = some settings →
      scope.resolve (some settings) = .ok key) (e : Expr) :
    (write.cell scope column e).stretch d
      = if (write.encrypt.lookup column).isSome then
          key.encrypted d ((plainCell scope column e).stretch d)
        else (plainCell scope column e).stretch d := by
  cases hlookup : write.encrypt.lookup column with
  | none => simp [cell, hlookup]
  | some settings =>
      rw [cell_of_key hlookup (hkey settings hlookup), hd, Option.isSome_some, if_pos rfl]
      exact key.stretch_apply hne (plain_plainCell write hd column e)

/-- Where there is no cipher, a statement that names a column of its items fails. -/
theorem fails_of_named (hsqlite : outer.dialect = .sqlite) (hshaped : write.Shaped outer.dialect)
    {column : String} (hcolumn : column ∈ write.itemColumns)
    (hnamed : column ∈ write.encrypt.map Prod.fst) (b : Bindings) :
    ∃ e b', (write.fragment outer).sql outer.dialect b = (.error e, b') := by
  have hd : (write.scope outer).dialect = .sqlite := by simp [Write.scope, hsqlite]
  obtain ⟨settings, hlookup⟩ := Option.isSome_iff_exists.1 (isSome_lookup_iff.2 hnamed)
  obtain ⟨e, hsubset⟩ := exists_cell hshaped hcolumn
  obtain ⟨e', he'⟩ := error_of_named hd hlookup e
  cases h : (write.fragment outer).sql outer.dialect b with
  | mk result b' =>
      cases result with
      | error e => exact ⟨e, b', rfl⟩
      | ok text => exact absurd (hsubset he') (Fragment.no_error_of_sql h e')

/-- **Encryption is put around the items of the columns it names, and around nothing else.** A
statement that compiles with nothing encrypted is laid out from its items. If there is a cipher and
the statement itself compiles, it is laid out alike, with the items of the columns that it names
passed through the cipher, under the keys that these columns resolve to; what a key binds comes
right after the values of the item. If there is no cipher, the statement fails exactly if it names a
column of its items. These columns are those of its data and of what it sets in rows that are there
already; only a row with two values for one column can have columns without an item. -/
theorem items_encrypted (write : Write) (outer : Scope) (b : Bindings) {text₀ : String}
    {b₀ : Bindings}
    (h₀ : (write.unencrypted.fragment outer).sql outer.dialect b = (.ok text₀, b₀)) :
    let scope := write.scope outer
    let item (column : String) (e : Expr) : Stretch :=
      (plainCell scope column e).stretch outer.dialect
    (write.layout outer item).Follows outer.dialect b text₀ b₀
    ∧ (outer.dialect ≠ .sqlite → ∀ text b',
        (write.fragment outer).sql outer.dialect b = (.ok text, b') →
        ∃ keyOf : String → Key,
          (∀ column ∈ write.itemColumns, ∀ settings, write.encrypt.lookup column = some settings →
            scope.resolve (some settings) = .ok (keyOf column)
            ∧ (keyOf column).vector.isSome = (keyOf column).mode.chained)
          ∧ (∀ column e, ((keyOf column).encrypted outer.dialect (item column e)).values
            = (item column e).values ++ (keyOf column).bound outer.dialect)
          ∧ (write.layout outer fun column e =>
            if (write.encrypt.lookup column).isSome then
              (keyOf column).encrypted outer.dialect (item column e)
            else item column e).Follows outer.dialect b text b')
    ∧ (outer.dialect = .sqlite →
        ((∃ e b', (write.fragment outer).sql outer.dialect b = (.error e, b'))
          ↔ ∃ column ∈ write.itemColumns, column ∈ write.encrypt.map Prod.fst))
    ∧ ((∀ row ∈ write.rows, row.columns.Nodup) →
        ∀ column, column ∈ write.itemColumns ↔ column ∈ write.columns) := by
  intro scope item
  have hd : scope.dialect = outer.dialect := by simp [scope, Write.scope]
  have hshaped₀ := shaped_of_hurdles (Fragment.no_error_of_sql h₀)
  have hshaped : write.Shaped outer.dialect := hshaped₀.of_unencrypted
  refine ⟨?_, fun hne text b' h => ?_, fun hsqlite => ⟨?_, ?_⟩, mem_itemColumns_iff hshaped⟩
  · have hfollows := Fragment.follows_of_sql (write.unencrypted.phrase_fragment rfl).plain h₀
    rwa [stretch_fragment hshaped₀] at hfollows
  · obtain ⟨keyOf, hkeyOf⟩ := exists_keyOf hshaped (Fragment.no_error_of_sql h)
    refine ⟨keyOf, fun column hcolumn settings hlookup =>
      ⟨hkeyOf column hcolumn settings hlookup,
        Cipher.Settings.vector_of_complete (hkeyOf column hcolumn settings hlookup)⟩,
      fun column e => (keyOf column).values_encrypted outer.dialect (item column e), ?_⟩
    have hfollows := Fragment.follows_of_sql (write.phrase_fragment rfl).plain h
    rw [stretch_fragment hshaped] at hfollows
    rwa [layout_congr fun column hcolumn e =>
      stretch_cell hd hne (hkeyOf column hcolumn) e] at hfollows
  · rintro ⟨e, b', h⟩
    by_contra hnone
    have hunnamed : ∀ column ∈ write.itemColumns, write.encrypt.lookup column = none := by
      intro column hcolumn
      rw [← Option.not_isSome_iff_eq_none, isSome_lookup_iff]
      exact fun hnamed => hnone ⟨column, hcolumn, hnamed⟩
    rw [fragment_of_unnamed hunnamed, h₀] at h
    cases h
  · rintro ⟨column, hcolumn, hnamed⟩
    exact fails_of_named hsqlite hshaped hcolumn hnamed b

/-- Accounts with encrypted addresses; the address of an account that is there already is written in
lower case. -/
def accounts : Write where
  table := "accounts"
  alias? := none
  rows := [[("id", .number (.int 1)), ("email", .text "a")],
    [("email", .text "b"), ("id", .number (.int 2))]]
  filter := none
  junction := .and
  upsert := [("email", .wrapper ⟨.string (.text "email") {} [.textCase .lower], none, none⟩)]
  indexes := ["id"]
  encrypt := [("email", { secret := some "k" })]
  encryption := some { vector := some "v" }

/-- The addresses of both rows and the one that is set are encrypted, with the vector of the
statement, and the numbers are not. -/
theorem items_encrypted_accounts :
    (∀ column, column ∈ accounts.itemColumns ↔ column ∈ accounts.columns)
    ∧ (∃ text b', (accounts.fragment (.outermost .mysql none)).sql .mysql {} = (.ok text, b')
      ∧ b'.values = [.identifier "accounts", .identifier "id", .identifier "email", .int 1,
        .text "a", .text "k", .text "v", .int 2, .text "b", .text "k", .text "v",
        .identifier "email", .identifier "email", .text "k", .text "v"]
      ∧ ∃ keyOf : String → Key,
        keyOf "email" = ⟨⟨.bits256, true⟩, "k", some "v", 512⟩
          ∧ (accounts.layout (.outermost .mysql none) fun column e =>
            if (accounts.encrypt.lookup column).isSome then
              (keyOf column).encrypted .mysql
                ((plainCell (accounts.scope (.outermost .mysql none)) column e).stretch .mysql)
            else (plainCell (accounts.scope (.outermost .mysql none)) column e).stretch
              .mysql).Follows .mysql {} text b')
    ∧ ∃ e b', (accounts.fragment (.outermost .sqlite none)).sql .sqlite {} = (.error e, b') := by
  refine ⟨?_, ?_, ?_⟩
  · exact (items_encrypted accounts (.outermost .mysql none) {} rfl).2.2.2 (by decide)
  · have hsql : ∃ text b',
        (accounts.fragment (.outermost .mysql none)).sql .mysql {} = (.ok text, b')
        ∧ b'.values = [.identifier "accounts", .identifier "id", .identifier "email", .int 1,
          .text "a", .text "k", .text "v", .int 2, .text "b", .text "k", .text "v",
          .identifier "email", .identifier "email", .text "k", .text "v"] := ⟨_, _, rfl, rfl⟩
    obtain ⟨text, b', hsql, hvalues⟩ := hsql
    obtain ⟨keyOf, hkeys, -, hfollows⟩ :=
      (items_encrypted accounts (.outermost .mysql none) {} rfl).2.1 nofun text b' hsql
    have hkey := (hkeys "email" (by decide) { secret := some "k" } rfl).1
    exact ⟨text, b', hsql, hvalues, keyOf, (Except.ok.inj hkey).symm, hfollows⟩
  · exact ((items_encrypted accounts (.outermost .sqlite none) {} rfl).2.2.1 rfl).2
      ⟨"email", by decide, by decide⟩

end Write

end QueryTree
