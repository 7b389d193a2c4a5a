import QueryTree.Proofs.Binding.Written
import QueryTree.Proofs.Nesting.Tree
import QueryTree.Proofs.Reading.Record
import QueryTree.Proofs.Statement.Basic

/-!
# Filters of updates and deletions

Whether an update or a deletion is restricted, told from its text: what follows `WHERE` at depth
zero.

* `after?`: what follows a word of an outline.
* `Filtered`: the keyword of a statement and the predicate of its text.
* `FilteredBy`, `filteredBy_of_run`: the predicate of a statement that ends with its filter.
* `Config.filter_of_statement`: which updates and deletions have one.
-/

namespace QueryTree

open Fragment (spaced Writes Avoids Inline)

variable {dialect : Dialect}

/-! ## Clauses of an outline -/

/-- What follows the first place of a word at depth zero. -/
def after? (w : String) : List Piece → Option (List Piece)
  | [] => none
  | p :: ps => if p.word? = some w then some ps else after? w ps

theorem after?_append {w : String} {ps : List Piece} (h : w ∉ wordsOf ps) (qs : List Piece) :
    after? w (ps ++ qs) = after? w qs := by
  induction ps with
  | nil => rfl
  | cons p ps ih =>
      have hp : p.word? ≠ some w := fun hp => h (List.mem_filterMap.2 ⟨p, by simp, hp⟩)
      have hps : w ∉ wordsOf ps := by
        intro hw
        obtain ⟨q, hq, hqw⟩ := List.mem_filterMap.1 hw
        exact h (List.mem_filterMap.2 ⟨q, by simp [hq], hqw⟩)
      rw [List.cons_append, after?, if_neg hp, ih hps]

theorem after?_bare (w : String) (ps : List Piece) :
    after? w (.token (.bare w) :: ps) = some ps :=
  if_pos rfl

/-- The text begins with the keyword, and the predicate is what stands after its `WHERE`. -/
def Filtered (dialect : Dialect) (sql keyword : String) (predicate : Option (List Piece)) : Prop :=
  ∃ ps, pieces? dialect sql = some ps ∧ (wordsOf ps).head? = some keyword
    ∧ after? "WHERE" ps = predicate

/-! ## What stands before the filter -/

theorem inline_tableFragment (table : String) (alias? : Option String) :
    Inline (tableFragment table alias?) := by
  cases alias? with
  | none =>
      intro _ w hw
      cases hw
  | some name =>
      intro _ w hw
      have hword : w = "AS" := by simpa [tableFragment, Fragment.surface] using hw
      rw [hword]
      decide

namespace Write

theorem inline_plainCell (scope : Scope) (column : String) (e : Expr) :
    Inline (plainCell scope column e) := by
  have hinline := (e.shows_fragment .value scope).inline e.face_ne_clausal
  cases e with
  | text s =>
      intro _ w hw
      cases hw
  | list _ => exact fun h => by cases h
  | condition _ => exact fun h => by cases h
  | _ => exact hinline

theorem inline_cell (write : Write) (scope : Scope) (column : String) (e : Expr) :
    Inline (write.cell scope column e) := by
  unfold cell
  split
  · next settings _ =>
      have hclosed : Fragment.Shows .closed
          (scope.cipher .encrypt settings (plainCell scope column e)) :=
        covers_cipher scope .encrypt settings _
      exact hclosed.inline (by simp)
  · exact inline_plainCell scope column e

theorem inline_assignments (write : Write) (scope : Scope) (row : Row) :
    Inline (write.assignments scope row) := by
  refine Fragment.avoids_commas fun f hf => ?_
  obtain ⟨⟨column, e⟩, -, rfl⟩ := List.mem_map.1 hf
  refine Fragment.avoids_spaced fun g hg => ?_
  simp only [List.mem_cons, List.not_mem_nil, or_false] at hg
  obtain rfl | rfl | rfl := hg
  · intro _ w hw
    cases hw
  · exact Fragment.avoids_word (by decide)
  · exact write.inline_cell scope column e

end Write

/-! ## The filter -/

theorem Fragment.Writes.clause {w : String} {body : Fragment} {ts : List Lexeme}
    (h : Writes dialect (clause [w] body) ts) :
    ∃ us, Writes dialect body us ∧ ts = .space :: .word w :: .space :: us := by
  obtain ⟨_, _, hspace, hrest, rfl⟩ := h.append
  obtain rfl := hspace.token
  obtain ⟨_, us, hkeyword, hbody, rfl⟩ := hrest.append
  obtain ⟨_, _, hword, hseparator, rfl⟩ := hkeyword.append
  obtain rfl := hword.token
  obtain rfl := hseparator.tokens
  exact ⟨us, hbody, rfl⟩

/-- The outline of a clause is its keyword and the outline of its body. -/
theorem exists_outlines_clause {w : String} {body : Fragment} (hw : standsAlone w = true)
    (hpaired : (clause [w] body).Paired) {b b' : Bindings} {ts : List Lexeme}
    (hrun : (clause [w] body).run dialect b = (.ok ts, b')) :
    ∃ qs, Outlines dialect ts (.token (.bare w) :: qs) ∧ body.halts = false ∧ body.Reads qs := by
  obtain ⟨-, -, hpairedBody⟩ := hpaired
  obtain ⟨us, ⟨b₁, b₂, hrunBody⟩, rfl⟩ := Writes.clause ⟨b, b', hrun⟩
  obtain ⟨qs, hqs, hreads⟩ := Fragment.exists_outlines hpairedBody hrunBody
  have hkeyword : Outlines dialect [.word w] [.token (.bare w)] := Lexeme.outlines_pieces hw
  have houtline := Outlines.space.append (hkeyword.append (Outlines.space.append hqs))
  exact ⟨qs, houtline, Fragment.halts_eq_false_of_run hrunBody, hreads⟩

theorem filterFragments_eq (junction : Junction) (scope : Scope) (filter : Option Condition) :
    filterFragments junction scope filter
      = entryFragments none junction scope (filter.getD []) := by
  cases filter <;> rfl

/-- Entries that are joined are not blank, unless there is one and it is. -/
theorem face_chain_ne_blank {junction : Junction} {scope : Scope} {entries : List Entry}
    (hne : entries ≠ []) (hface : conditionFace false entries ≠ .blank)
    (h : (junction.chain (entryFragments none junction scope entries)).halts = false) :
    (junction.chain (entryFragments none junction scope entries)).face ≠ .blank := by
  match entries with
  | [] => exact absurd rfl hne
  | [entry] =>
      have hshows := entry.shows_fragment junction scope inline_of_mem_none
      rw [show (junction.chain (entryFragments none junction scope [entry])).face
        = entry.face false from hshows h]
      exact hface
  | first :: second :: rest =>
      -- the connective itself is there
      intro hblank
      obtain ⟨hleft, -⟩ := Face.join_eq_blank.1 hblank
      obtain ⟨-, hconnective⟩ := Face.join_eq_blank.1 hleft
      cases junction <;> cases hconnective

/-- A statement with a filter of these entries: there is a predicate exactly if there is an entry,
and it is not blank unless the condition comes down to an empty list. -/
def FilteredBy (dialect : Dialect) (sql keyword : String) (entries : Condition) : Prop :=
  ∃ predicate, Filtered dialect sql keyword predicate ∧ (predicate = none ↔ entries = [])
    ∧ (conditionFace false entries ≠ .blank → predicate ≠ some [])

/-- **The predicate of a statement that ends with its filter.** -/
theorem filteredBy_of_run {head : Fragment} {keyword : String} {junction : Junction}
    {scope : Scope} {filter : Option Condition} {b b' : Bindings} {ts : List Lexeme}
    (hphrase : Phrase dialect
      (head ++ conditionClause "WHERE" junction (filterFragments junction scope filter)))
    (hhead : Avoids ["WHERE"] head) (hkeyword : head.surface.head? = some keyword)
    (hrun : (head ++ conditionClause "WHERE" junction (filterFragments junction scope filter)).run
      dialect b = (.ok ts, b')) :
    FilteredBy dialect (render dialect ts) keyword (filter.getD []) := by
  have hhalts := Fragment.halts_eq_false_of_run hrun
  obtain ⟨hpaired, hpairedClause⟩ := hphrase.paired hhalts
  obtain ⟨hhaltsHead, -⟩ := Bool.or_eq_false_iff.1 hhalts
  obtain ⟨us, b₁, vs, hrunHead, hrunClause, rfl⟩ := Fragment.run_append_ok.1 hrun
  obtain ⟨ps, hps, hreads⟩ := Fragment.exists_outlines hpaired hrunHead
  have hfree : "WHERE" ∉ wordsOf ps := by
    intro hw
    rw [hreads.words_eq] at hw
    exact hhead hhaltsHead _ hw (by simp)
  have hfirst : ∀ qs, (wordsOf (ps ++ qs)).head? = some keyword := by
    intro qs
    rw [wordsOf_append, hreads.words_eq, List.head?_append, hkeyword, Option.some_or]
  have hread : ∀ qs, Outlines dialect vs qs →
      pieces? dialect (render dialect (us ++ vs)) = some (ps ++ qs) :=
    fun qs hqs => (hps.append hqs).pieces_eq (hphrase.tidy hrun)
  rw [filterFragments_eq] at hrunClause hpairedClause
  cases hentries : filter.getD [] with
  | nil =>
      rw [hentries] at hrunClause
      cases hrunClause
      exact ⟨none, ⟨_, hread [] .nil, hfirst [], after?_append hfree []⟩, by simp, by simp⟩
  | cons entry rest =>
      rw [hentries] at hrunClause hpairedClause
      have hne : entry :: rest ≠ [] := List.cons_ne_nil entry rest
      obtain ⟨qs, hqs, hhaltsBody, hreadsBody⟩ :=
        exists_outlines_clause rfl hpairedClause hrunClause
      refine ⟨some qs, ⟨_, hread _ hqs, hfirst _, ?_⟩, by simp, fun hface hnil => ?_⟩
      · rw [after?_append hfree, after?_bare]
      · obtain rfl := Option.some.inj hnil
        exact face_chain_ne_blank hne hface hhaltsBody (hreadsBody.nil_iff.1 rfl)

theorem Delete.filteredBy (delete : Delete) {safeMode : Bool} {outer : Scope}
    (hd : outer.dialect = dialect) {b b' : Bindings} {ts : List Lexeme}
    (hrun : (delete.fragment safeMode outer).run dialect b = (.ok ts, b')) :
    (safeMode = true → delete.filter.getD [] ≠ [])
      ∧ FilteredBy dialect (render dialect ts) "DELETE" (delete.filter.getD []) := by
  have hphrase := delete.phrase_fragment safeMode hd
  unfold Delete.fragment at hrun hphrase
  split at hrun
  · cases hrun
  · next hguard =>
      rw [if_neg hguard] at hphrase
      have hhead : Avoids ["WHERE"]
          (spaced ["DELETE", "FROM", tableFragment delete.table delete.alias?]) := by
        refine Fragment.avoids_spaced fun f hf => ?_
        simp only [List.mem_cons, List.not_mem_nil, or_false] at hf
        obtain rfl | rfl | rfl := hf
        · exact Fragment.avoids_word (by decide)
        · exact Fragment.avoids_word (by decide)
        · exact (inline_tableFragment _ _).mono (by decide)
      refine ⟨fun hsafe hempty => hguard ?_, filteredBy_of_run hphrase hhead rfl hrun⟩
      rw [hsafe, hempty]
      rfl

theorem Write.filteredBy (write : Write) {entries : Condition}
    (hfilter : write.filter = some entries) {outer : Scope} (hd : outer.dialect = dialect)
    {b b' : Bindings} {ts : List Lexeme}
    (hrun : (write.fragment outer).run dialect b = (.ok ts, b')) :
    FilteredBy dialect (render dialect ts) "UPDATE" entries := by
  have hphrase := write.phrase_updateFragment hd
  rw [Write.fragment, hfilter, Option.isSome_some, if_pos rfl] at hrun
  unfold Write.updateFragment at hrun hphrase
  split at hrun
  · next row hrow =>
      rw [hrow] at hphrase
      split at hrun
      · next hupsert =>
          simp only [hupsert, if_true] at hphrase
          have hhead : Avoids ["WHERE"] (spaced ["UPDATE", tableFragment write.table write.alias?,
              "SET", write.assignments
                (outer.target write.table write.alias? write.encryption) row]) := by
            refine Fragment.avoids_spaced fun f hf => ?_
            simp only [List.mem_cons, List.not_mem_nil, or_false] at hf
            obtain rfl | rfl | rfl | rfl := hf
            · exact Fragment.avoids_word (by decide)
            · exact (inline_tableFragment _ _).mono (by decide)
            · exact Fragment.avoids_word (by decide)
            · exact (write.inline_assignments _ row).mono (by decide)
          have hfiltered := filteredBy_of_run hphrase hhead rfl hrun
          rwa [hfilter] at hfiltered
      · cases hrun
  · cases hrun

/-! ## Statements -/

/-- **Updates and deletions are restricted.** In safe mode a deletion has a filter that is an
object with a field, and its text has a predicate. A filter that is given makes a statement an
update, whose text has a predicate exactly if the filter has a field. No such predicate is blank,
unless the filter comes down to an empty list of conditions. -/
theorem Config.filter_of_statement (config : Config) (json : Json) (c : Compiled) :
    (config.safeMode = true → config.delete json = .ok c →
      ∃ fields entries predicate, json.given? "where" = some (.obj fields) ∧ fields ≠ []
        ∧ ReadsAs fields entries ∧ Filtered config.dialect c.sql "DELETE" (some predicate)
        ∧ (conditionFace false entries ≠ .blank → predicate ≠ []))
    ∧ (json.given? "where" ≠ none → config.write json = .ok c →
      ∃ fields entries predicate, json.given? "where" = some (.obj fields)
        ∧ ReadsAs fields entries ∧ Filtered config.dialect c.sql "UPDATE" predicate
        ∧ (predicate = none ↔ fields = [])
        ∧ (conditionFace false entries ≠ .blank → predicate ≠ some [])) := by
  have hscope : config.scope.dialect = config.dialect := rfl
  constructor
  · intro hsafe h
    obtain ⟨delete, omissions, ts, b, hread, hrun, hsql, -⟩ := Config.compile_ok h
    obtain ⟨hneeded, predicate, hfiltered, hnone, hblank⟩ := delete.filteredBy hscope hrun
    obtain ⟨-, hfilter⟩ | ⟨fields, entries, hgiven, hfilter, hentries⟩ := filterOf_readDelete hread
    · exact absurd (by rw [hfilter]; rfl) (hneeded hsafe)
    · rw [hfilter, Option.getD_some] at hneeded hnone hblank
      have hne := hneeded hsafe
      cases predicate with
      | none => exact absurd (hnone.1 rfl) hne
      | some ps =>
          refine ⟨fields, entries, ps, hgiven, mt hentries.eq_nil_iff.2 hne, hentries, ?_, ?_⟩
          · rwa [hsql]
          · exact fun hface hps => hblank hface (congrArg some hps)
  · intro hgiven h
    obtain ⟨write, omissions, ts, b, hread, hrun, hsql, -⟩ := Config.compile_ok h
    obtain ⟨habsent, -⟩ | ⟨fields, entries, hgiven, hfilter, hentries⟩ := filterOf_readWrite hread
    · exact absurd habsent hgiven
    · obtain ⟨predicate, hfiltered, hnone, hblank⟩ := write.filteredBy hfilter hscope hrun
      refine ⟨fields, entries, predicate, hgiven, hentries, ?_, ?_, hblank⟩
      · rwa [hsql]
      · rw [hnone, hentries.eq_nil_iff]

/-- A statement about the table `t` with a filter. -/
def statementWith (filter : Json) (fields : List (String × Json)) : Json :=
  .obj ([("table", .str "t"), ("where", filter)] ++ fields)

/-- The data of an update. -/
def oneCell : List (String × Json) :=
  [("data", .obj [("a", .num (.int 1))])]

/-- Numbers below one or above two. -/
def outside : Json :=
  .obj [("or", .arr [.obj [("a", .obj [("lt", .num (.int 1))])],
    .obj [("a", .obj [("gt", .num (.int 2))])]])]

/-- A configuration in safe mode. -/
def guarded : Config :=
  { dialect := .postgresql, safeMode := true }

/-- Both statements with the same filter. -/
theorem Config.filter_of_statement_outside :
    (∃ c predicate, guarded.delete (statementWith outside []) = .ok c
      ∧ c.sql = "DELETE FROM \"t\" WHERE (\"a\" < $1 OR \"a\" > $2)"
      ∧ Filtered .postgresql c.sql "DELETE" (some predicate) ∧ predicate ≠ [])
    ∧ ∃ c predicate, guarded.write (statementWith outside oneCell) = .ok c
      ∧ c.sql = "UPDATE \"t\" SET \"a\" = $1 WHERE (\"a\" < $2 OR \"a\" > $3)"
      ∧ Filtered .postgresql c.sql "UPDATE" (some predicate) ∧ predicate ≠ [] := by
  have hdelete : guarded.delete (statementWith outside []) = .ok
      { dialect := .postgresql, values := [.int 1, .int 2], preamble := [], omissions := [],
        sql := "DELETE FROM \"t\" WHERE (\"a\" < $1 OR \"a\" > $2)" } := rfl
  have hwrite : guarded.write (statementWith outside oneCell) = .ok
      { dialect := .postgresql, values := [.int 1, .int 1, .int 2], preamble := [], omissions := [],
        sql := "UPDATE \"t\" SET \"a\" = $1 WHERE (\"a\" < $2 OR \"a\" > $3)" } := rfl
  constructor
  · obtain ⟨fields, entries, predicate, hgiven, -, ⟨owner, s, s', hread⟩, hfiltered, hblank⟩ :=
      (Config.filter_of_statement guarded _ _).1 rfl hdelete
    cases hgiven
    cases hread
    exact ⟨_, predicate, hdelete, rfl, hfiltered, hblank (by decide)⟩
  · obtain ⟨fields, entries, predicate, hgiven, ⟨owner, s, s', hread⟩, hfiltered, hnone, hblank⟩ :=
      (Config.filter_of_statement guarded _ _).2 (by decide) hwrite
    cases hgiven
    cases hread
    cases predicate with
    | none => exact absurd (hnone.1 rfl) (by simp)
    | some ps =>
        exact ⟨_, ps, hwrite, rfl, hfiltered, fun hps => hblank (by decide) (congrArg some hps)⟩

/-- An update with a filter of no fields changes all rows. -/
theorem Config.filter_left_out :
    ¬ ∀ (config : Config) (json : Json) (c : Compiled),
      (config.safeMode = true → config.delete json = .ok c →
        ∃ predicate, Filtered config.dialect c.sql "DELETE" (some predicate) ∧ predicate ≠ [])
      ∧ (json.given? "where" ≠ none → config.write json = .ok c →
        ∃ predicate, Filtered config.dialect c.sql "UPDATE" (some predicate)
          ∧ predicate ≠ []) := by
  intro h
  have hwrite : ({ dialect := .sqlite } : Config).write (statementWith (.obj []) oneCell) = .ok
      { dialect := .sqlite, sql := "UPDATE \"t\" SET \"a\" = ?"
        values := [.int 1], preamble := [], omissions := [] } := rfl
  obtain ⟨predicate, ⟨ps, hps, -, hafter⟩, -⟩ := (h _ _ _).2 (by decide) hwrite
  have hpieces : pieces? .sqlite "UPDATE \"t\" SET \"a\" = ?" = some [.token (.bare "UPDATE"),
      .token (.name ["t"]), .token (.bare "SET"), .token (.name ["a"]), .token (.bare "="),
      .token .question] := rfl
  rw [hpieces] at hps
  cases hps
  cases hafter

end QueryTree
