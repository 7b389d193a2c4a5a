import QueryTree.Proofs.Statement.Hollow

/-!
# Clauses without a body

A statement has no clause without a body, no connective without an operand and no blank list if
none of its segments is hollow. Hollow segments are seen in its text, so that the converse holds as
well.

* `Segment.Placed`, `Segment.placed_of_mem_all`: segments that stand in a text without blanks.
* `Segment.not_hollow`: none of them is hollow.
* `Config.complete_of_statement`: which statements are complete.
-/

namespace QueryTree

open Fragment (word words spaced commas parens call Frames Holds Within)

/-! ## Segments in a text without blanks -/

namespace Segment

/-- A segment in a text without blanks; whole statements are such texts themselves. -/
structure Placed (s : Segment) : Prop where
  within : s.body.Within
  complete : s.isWhole = true → Complete s.body.contour

theorem Placed.of_fragment {s : Segment} (h : s.fragment.Within) : s.Placed := by
  unfold fragment at h
  cases hwhole : s.isWhole with
  | true =>
      rw [hwhole] at h
      have hcomplete : Complete s.body.contour := h.inner.enclosed
      exact ⟨⟨h.halts, hcomplete.inner⟩, fun _ => hcomplete⟩
  | false =>
      rw [hwhole] at h
      exact ⟨h, fun hfalse => by rw [hwhole] at hfalse; cases hfalse⟩

theorem Placed.fragments {s : Segment} (h : s.Placed) : ∀ f ∈ fragments s.children, f.Within :=
  s.holds_body.within h.within

theorem Placed.child {s child : Segment} (h : s.Placed) (hchild : child ∈ s.children) :
    child.Placed :=
  .of_fragment (h.fragments _ (List.mem_map_of_mem hchild))

theorem placed_of_mem_all {s : Segment} (h : s.Placed) : ∀ t ∈ s.all, t.Placed := by
  induction s using Segment.induction with
  | step s ih =>
      rw [s.all_eq, List.forall_mem_append, List.forall_mem_singleton]
      refine ⟨fun t ht => ?_, h⟩
      obtain ⟨child, hchild, ht⟩ := List.mem_flatMap.1 ht
      exact ih child hchild (h.child hchild) t ht

/-! ## What is there in such a text -/

/-- No errors arise in the segments of a list. -/
def Proceeds (ss : List Segment) : Prop :=
  ∀ s ∈ ss, s.fragment.halts = false

theorem proceeds_append {ss ts : List Segment} :
    Proceeds (ss ++ ts) ↔ Proceeds ss ∧ Proceeds ts :=
  List.forall_mem_append

theorem Placed.proceeds {s : Segment} (h : s.Placed) : Proceeds s.children :=
  fun _ hchild => (h.fragments _ (List.mem_map_of_mem hchild)).halts

theorem Proceeds.not_blank {ss : List Segment} (h : Proceeds ss)
    (hne : ∀ f ∈ Segment.fragments ss, f.contour ≠ []) : ss.any isBlank = false := by
  refine List.any_eq_false.2 fun s hs hblank => ?_
  exact hne _ (List.mem_map_of_mem hs) ((contour_eq_nil_iff (h s hs)).2 hblank)

theorem Proceeds.condition {ss : List Segment} (h : Proceeds ss)
    (hne : Segment.fragments ss ≠ [] ∧ ∀ f ∈ Segment.fragments ss, f.contour ≠ []) :
    lacksCondition ss = false := by
  refine Bool.or_eq_false_iff.2 ⟨?_, h.not_blank hne.2⟩
  simpa using hne.1

theorem Proceeds.operands {ss : List Segment} (h : Proceeds ss)
    (hne : 2 ≤ (Segment.fragments ss).length → ∀ f ∈ Segment.fragments ss, f.contour ≠ []) :
    lacksOperand ss = false := by
  unfold lacksOperand
  by_cases hlength : 2 ≤ ss.length
  · simpa [hlength] using h.not_blank (hne (by simpa using hlength))
  · simp [hlength]

theorem Proceeds.items {ss : List Segment} (h : Proceeds ss)
    (hne : (commas (Segment.fragments ss)).contour ≠ []) : lacksItems ss = false := by
  rw [Ne, contour_commas_eq_nil] at hne
  match ss with
  | [] => exact absurd (.inl rfl) hne
  | [item] =>
      rw [lacksItems, Bool.eq_false_iff]
      intro hblank
      exact hne (.inr ⟨_, rfl, (contour_eq_nil_iff (h item List.mem_cons_self)).2 hblank⟩)
  | _ :: _ :: _ => rfl

/-- The branches of a case expression have conditions, whatever ends the last of them. -/
theorem branches_not_hollow {scope : Scope} {branches : List (List Entry × Expr)}
    {rest : List Contour} (h : Proceeds (branches.flatMap fun (check, result) =>
      check.map (.entry .none .and scope) ++ [.expr .value scope result]))
    (hfinal : Final ((branchFragment scope branches).contour ++ rest)) :
    (branches.any fun (check, _) => lacksCondition (check.map (.entry .none .and scope)))
      = false := by
  induction branches with
  | nil => rfl
  | cons branch branches ih =>
      obtain ⟨check, result⟩ := branch
      obtain ⟨hbranch, hbranches⟩ := proceeds_append.1 (List.flatMap_cons ▸ h)
      have hcheck := (proceeds_append.1 hbranch).1
      rw [branchFragment, Fragment.contour_append, Fragment.contour_append, List.append_assoc,
        List.append_assoc] at hfinal
      refine Bool.or_eq_false_iff.2 ⟨?_, ih hbranches hfinal.right.right⟩
      refine hcheck.condition ?_
      rw [fragments_entries]
      exact operands_of_clause (by decide) hfinal
        (trailing_clause (by decide) _ _)

theorem core_not_hollow {scope : Scope} {c : Core} (h : (Segment.core scope c).Placed) :
    (Segment.core scope c).isHollow = false := by
  have hproceeds : Proceeds (coreChildren scope c) := h.proceeds
  have hwithin : (c.fragment scope).Within := h.within
  cases c with
  | concat values separator cast encryption steps =>
      cases separator with
      | some separator => rfl
      | none =>
          have hvalues := (proceeds_append.1 hproceeds).1
          have hholds : (Core.fragment scope (.concat values none cast encryption steps)).Holds _ :=
            ((Frames.part _).castOptional _ cast).stringSteps _ steps
          have hjoined := hholds.within hwithin _ List.mem_cons_self
          have hitems : scope.dialect ≠ .sqlite →
              lacksItems (values.map (.expr .column (scope.withCall encryption))) = false := by
            intro hd
            refine hvalues.items ?_
            rw [fragments_exprs]
            cases hdialect : (scope.withCall encryption).dialect with
            | sqlite => exact absurd (by simpa using hdialect) hd
            | mysql | postgresql =>
                rw [hdialect] at hjoined
                exact list_of_chain (w := "CONCAT") (by decide) hjoined.inner.chain
          simpa [isHollow] using hitems
  | choice check yes no =>
      have hcheck := (proceeds_append.1 hproceeds).1
      simp only [Core.fragment] at hwithin
      split at hwithin
      · refine hcheck.condition ?_
        rw [fragments_entries]
        exact operands_of_choice hwithin.inner
      · cases hwithin.halts
  | cases branches otherwise =>
      have hbranches := (proceeds_append.1 hproceeds).1
      cases otherwise <;> exact branches_not_hollow hbranches hwithin.inner.enclosed.toFinal
  | _ => rfl

theorem comparison_not_hollow (ss : List Segment) {d : Dialect} {left : Fragment} {c : Comparison}
    (hregular : c.Regular) (h : (c.fragment d left).Within) (hproceeds : Proceeds (c.segments ss)) :
    c.isHollow = false := by
  cases c with
  | among field comparator items =>
      have hitems := (proceeds_append.1 hproceeds).2
      refine hitems.items ?_
      simp only [Comparison.fragment, inList] at h
      split at h
      · cases h.halts
      · have hinner := h.inner
        obtain rfl | rfl := hregular
        · have hlist : Inner (left.contour ++ [.word "IN",
              .enclosed .parens (commas (fragments items)).contour]) := by
            simpa [Comparator.words] using hinner
          exact list_of_chain (by decide) hlist.right.chain
        · have hlist : Inner (left.contour ++ (.word "NOT" :: [.word "IN",
              .enclosed .parens (commas (fragments items)).contour])) := by
            simpa [Comparator.words] using hinner
          exact list_of_chain (by decide) hlist.right.tail.chain
  | _ => rfl

theorem entry_not_hollow {subject : Subject} {junction : Junction} {scope : Scope} {e : Entry}
    (h : (Segment.entry subject junction scope e).Placed) :
    (Segment.entry subject junction scope e).isHollow = false := by
  have hproceeds : Proceeds (entryChildren subject junction scope e) := h.proceeds
  have hwithin : (e.fragment (subject.fragment? scope) junction scope).Within := h.within
  cases e with
  | wrapper w => rfl
  | all conditions =>
      refine Proceeds.operands hproceeds ?_
      rw [fragments_groups]
      exact operands_of_nest hwithin.inner
  | any conditions =>
      refine Proceeds.operands hproceeds ?_
      rw [fragments_groups]
      exact operands_of_nest hwithin.inner
  | between low high =>
      have hbounds := (proceeds_append.1 hproceeds).2
      have hlow := bound_of_between hwithin.inner
      rw [isHollow, Bool.eq_false_iff]
      exact fun hblank => hlow ((contour_eq_nil_iff (hbounds _ List.mem_cons_self)).2 hblank)
  | compare comparator operand =>
      rw [Entry.fragment_compare] at hwithin
      exact comparison_not_hollow _
        (Comparison.regular_ofOperand junction scope comparator operand) hwithin hproceeds
  | column key operand =>
      cases operand with
      | condition entries => rfl
      | _ =>
          rw [Entry.fragment_column] at hwithin
          · exact comparison_not_hollow [] (Comparison.regular_ofColumn scope key _) hwithin
              hproceeds
          · rintro _ ⟨⟩

/-! ### Clauses -/

theorem filter_not_blank {w : String} (hw : (Contour.word w).isOneOf bodyWords = true)
    {junction : Junction} {scope : Scope} {filter : Option Condition} {rest : List Contour}
    (hproceeds : Proceeds (filterSegments junction scope filter))
    (h : Final
      ((conditionClause w junction (filterFragments junction scope filter)).contour ++ rest))
    (hrest : Trailing rest) : (filterSegments junction scope filter).any isBlank = false := by
  refine hproceeds.not_blank ?_
  rw [fragments_filter]
  exact operands_of_conditionClause hw h hrest

/-- What is joined stands after the words of the join, before how its rows are matched. -/
theorem contour_join (parent : String) (scope : Scope) (kind : JoinKind) (matching : Matching)
    (q : Query) : ∃ target : Fragment, (Join.fragment parent scope ⟨kind, matching, q⟩).contour
      = kind.words.map .word ++ (target.contour ++ (matching.fragment
        (scope.target parent (some parent) none) ((scope.target parent (some parent) none).target
          q.table (some q.qualifier) none)).contour) := by
  rw [Join.fragment]
  simp only [Fragment.contour_append, Fragment.contour_spaced, List.flatMap_cons, List.flatMap_nil,
    Fragment.contour_words, List.append_nil, List.append_assoc]
  exact ⟨_, rfl⟩

theorem trailing_joins (parent : String) (scope : Scope) (joins : List Join) {rest : List Contour}
    (hrest : Trailing rest) : Trailing ((joinsFragment parent scope joins).contour ++ rest) := by
  cases joins with
  | nil => exact hrest
  | cons join joins =>
      obtain ⟨kind, matching, q⟩ := join
      obtain ⟨target, htarget⟩ := contour_join parent scope kind matching q
      have hjoins : (joinsFragment parent scope (⟨kind, matching, q⟩ :: joins)).contour
          = (Join.fragment parent scope ⟨kind, matching, q⟩).contour
            ++ (joinsFragment parent scope joins).contour := rfl
      rw [hjoins, htarget]
      cases kind <;> (rintro x ⟨⟩; decide)

theorem joins_not_hollow {parent : String} {scope : Scope} {joins : List Join} {rest : List Contour}
    (hproceeds : Proceeds (joins.flatMap (joinSegments parent scope)))
    (h : Final ((joinsFragment parent scope joins).contour ++ rest)) (hrest : Trailing rest) :
    joins.any (Join.isHollow parent scope) = false := by
  induction joins with
  | nil => rfl
  | cons join joins ih =>
      obtain ⟨kind, matching, q⟩ := join
      obtain ⟨hjoin, hjoins⟩ := proceeds_append.1 (List.flatMap_cons ▸ hproceeds)
      obtain ⟨target, htarget⟩ := contour_join parent scope kind matching q
      have hsplit : (joinsFragment parent scope (⟨kind, matching, q⟩ :: joins)).contour
          = (Join.fragment parent scope ⟨kind, matching, q⟩).contour
            ++ (joinsFragment parent scope joins).contour := rfl
      rw [hsplit, htarget] at h
      simp only [List.append_assoc] at h
      have hmatching := h.right.right
      have hafter := trailing_joins parent scope joins hrest
      refine Bool.or_eq_false_iff.2 ⟨?_, ih hjoins hmatching.right⟩
      cases matching with
      | unmatched => rfl
      | shared columns =>
          have hlist := list_of_chain (w := "USING") (by decide) hmatching.chain
          cases columns with
          | nil => exact absurd rfl hlist
          | cons => rfl
      | pairs pairs =>
          have hpairs := (proceeds_append.1 hjoin).2
          refine Proceeds.condition hpairs ?_
          rw [Matching.fragment, pairFragments_eq] at hmatching
          rw [fragments, List.map_map]
          exact operands_of_clause (by decide) hmatching hafter

theorem trailing_limit (d : Dialect) (limit offset : Option Nat) :
    Trailing (limitFragment d limit offset).contour := by
  have hpassed (n : Nat) : Trailing (clause ["OFFSET"] (.value (.ofNat n))).contour := by
    have hclause : Trailing ((clause ["OFFSET"] (.value (.ofNat n))).contour ++ []) :=
      trailing_clause (by decide) _ []
    rwa [List.append_nil] at hclause
  unfold limitFragment
  rw [Fragment.contour_append]
  split
  · exact trailing_clause (by decide) _ _
  · split
    · exact trailing_clause (by decide) _ _
    · exact hpassed _
  · simp [Trailing, Fragment.contour]

theorem query_not_hollow {outer : Scope} {build : Option (JsonOptions × JsonBody)} {q : Query}
    (h : (Segment.query outer build q).Placed) :
    (Segment.query outer build q).isHollow = false := by
  have hproceeds : Proceeds (queryChildren outer build q) := h.proceeds
  obtain ⟨hproceeds, hhaving⟩ := proceeds_append.1 hproceeds
  obtain ⟨hproceeds, -⟩ := proceeds_append.1 hproceeds
  obtain ⟨hproceeds, hfilter⟩ := proceeds_append.1 hproceeds
  have hjoins := (proceeds_append.1 hproceeds).2
  have hfinal := (h.complete rfl).toFinal
  rw [body, Query.fragment_eq] at hfinal
  simp only [Fragment.contour_append, List.append_assoc] at hfinal
  -- each clause is followed by those after it
  have hsorted := trailing_listClause "ORDER" ["BY"] (by decide)
    (orderFragments (q.scope outer) (outputAliases q.select) q.orderBy)
    (trailing_limit (q.scope outer).dialect q.limit q.offset)
  have hkept := trailing_conditionClause "HAVING" (by decide) q.junction
    (filterFragments q.junction (q.scope outer) q.having) hsorted
  have hgrouped := trailing_listClause "GROUP" ["BY"] (by decide)
    (keyFragments (q.scope outer) (outputAliases q.select) q.groupBy) hkept
  have hfiltered := trailing_conditionClause "WHERE" (by decide) q.junction
    (filterFragments q.junction (q.scope outer) q.filter) hgrouped
  have hfinal := hfinal.right
  refine Bool.or_eq_false_iff.2 ⟨Bool.or_eq_false_iff.2 ⟨?_, ?_⟩, ?_⟩
  · exact filter_not_blank (by decide) hfilter hfinal.right hgrouped
  · exact filter_not_blank (by decide) hhaving hfinal.right.right.right hsorted
  · exact joins_not_hollow hjoins hfinal hfiltered

/-- An update without errors sets the columns of a single row. -/
theorem updateFragment_eq {w : Write} {outer : Scope}
    (h : (w.updateFragment outer).halts = false) :
    ∃ row, w.rows = [row] ∧ w.updateFragment outer
      = spaced ["UPDATE", tableFragment w.table w.alias?, "SET",
          w.assignments (outer.target w.table w.alias? w.encryption) row]
        ++ conditionClause "WHERE" w.junction
          (filterFragments w.junction (outer.target w.table w.alias? w.encryption) w.filter) := by
  unfold Write.updateFragment at h ⊢
  split at h
  · next row hrows =>
      split at h
      · next hupsert => exact ⟨row, hrows, if_pos hupsert⟩
      · cases h
  · cases h

theorem update_not_hollow {w : Write} {outer : Scope}
    (hfilter : Proceeds
      (filterSegments w.junction (outer.target w.table w.alias? w.encryption) w.filter))
    (hhalts : (w.updateFragment outer).halts = false)
    (hfinal : Final (w.updateFragment outer).contour) :
    w.rows.any List.isEmpty = false
      ∧ (filterSegments w.junction (outer.target w.table w.alias? w.encryption)
        w.filter).any isBlank = false := by
  obtain ⟨row, hrows, hupdate⟩ := updateFragment_eq hhalts
  rw [hupdate, Fragment.contour_append] at hfinal
  have hwhere := trailing_conditionClause "WHERE" (by decide) w.junction
    (filterFragments w.junction (outer.target w.table w.alias? w.encryption) w.filter)
    (by simp [Trailing] : Trailing [])
  rw [List.append_nil] at hwhere
  constructor
  · have hset : Final ((tableFragment w.table w.alias?).contour ++ (.word "SET" ::
        ((w.assignments (outer.target w.table w.alias? w.encryption) row).contour ++ _))) :=
      Final.tail (by simpa using hfinal)
    have hne := hset.right.ne_nil (by decide) hwhere
    rw [hrows]
    cases row with
    | nil => exact absurd rfl hne
    | cons => rfl
  · refine filter_not_blank (w := "WHERE") (by decide) hfilter ?_
      (by simp [Trailing] : Trailing [])
    rw [List.append_nil]
    exact hfinal.right

theorem write_not_hollow {outer : Scope} {w : Write} (h : (Segment.write outer w).Placed) :
    (Segment.write outer w).isHollow = false := by
  have hproceeds : Proceeds (writeChildren outer w) := h.proceeds
  have hfinal : Final (w.fragment outer).contour := (h.complete rfl).toFinal
  have hhalts : (w.fragment outer).halts = false := h.within.halts
  cases hfilter : w.filter.isSome with
  | false => simp [isHollow, hfilter]
  | true =>
      unfold Write.fragment at hfinal hhalts
      unfold writeChildren at hproceeds
      rw [if_pos hfilter] at hfinal hhalts hproceeds
      obtain ⟨hrows, hblank⟩ := update_not_hollow (proceeds_append.1 hproceeds).2 hhalts hfinal
      simp [isHollow, hfilter, hrows, hblank]

theorem delete_not_hollow {safeMode : Bool} {outer : Scope} {d : Delete}
    (h : (Segment.delete safeMode outer d).Placed) :
    (Segment.delete safeMode outer d).isHollow = false := by
  have hfinal : Final (d.fragment safeMode outer).contour := (h.complete rfl).toFinal
  have hhalts : (d.fragment safeMode outer).halts = false := h.within.halts
  unfold Delete.fragment at hfinal hhalts
  split at hfinal
  · next hsafe =>
      rw [if_pos hsafe] at hhalts
      cases hhalts
  · rw [Fragment.contour_append, ← List.append_nil (Fragment.contour _ ++ _), List.append_assoc]
      at hfinal
    exact filter_not_blank (by decide) h.proceeds hfinal.right (by simp [Trailing])

/-- **Segments in a text without blanks are not hollow.** -/
theorem not_hollow {s : Segment} (h : s.Placed) : s.isHollow = false := by
  cases s with
  | expr place scope e => rfl
  | core scope c => exact core_not_hollow h
  | entry subject junction scope e => exact entry_not_hollow h
  | group subject junction scope entries =>
      have hwithin : (junction.group (entryFragments (subject.fragment? scope) junction scope
        entries)).Within := h.within
      have hproceeds : Proceeds (entries.map (.entry subject junction scope)) := h.proceeds
      refine hproceeds.operands ?_
      rw [fragments_entries]
      exact operands_of_group hwithin.inner
  | pair outer inner column e => rfl
  | query outer build q => exact query_not_hollow h
  | write outer w => exact write_not_hollow h
  | delete safeMode outer d => exact delete_not_hollow h

end Segment

namespace Config

/-- **Which statements have a clause without a body.** The text of a compiled statement is read as
an outline. At no depth of it is anything blank after `WHERE`, `HAVING`, `ON`, `SET` or `WHEN`,
beside a connective, in the lists of `USING`, `IN` and `CONCAT` or in the condition of `IF`, if no
segment of the statement is hollow and no upper bound is blank. If a segment is hollow, it is not
so: the compiler writes empty conditions and lists that it does not refuse. -/
theorem complete_of_statement {config : Config} {kind : StatementKind} {json : Json} {c : Compiled}
    (h : config.statement kind json = .ok c) :
    ∃ root ps, config.segment kind json = .ok root ∧ pieces? config.dialect c.sql = some ps
      ∧ ((∀ s ∈ root.all, s.isHollow = false ∧ s.lacksUpperBound = false) →
        Complete (contourOf ps))
      ∧ (Complete (contourOf ps) → ∀ s ∈ root.all, s.isHollow = false) := by
  obtain ⟨f, ts, b, hfragment, hphrase, hrun, hsql, -⟩ := statement_ok h
  obtain ⟨root, hroot, rfl⟩ := exists_segment hfragment
  have hhalts := Fragment.halts_eq_false_of_run hrun
  obtain ⟨ps, hps, hcontour⟩ := Fragment.exists_contour (hphrase.paired hhalts) hrun
  refine ⟨root, ps, hroot, ?_, ?_, ?_⟩
  · rw [hsql]
    exact hps.pieces_eq (hphrase.tidy hrun)
  · intro hall
    have hjoinable := root.joinable_of_all hall hhalts
    rw [isWhole_of_segment hroot] at hjoinable
    exact hcontour ▸ hjoinable.complete
  · intro hcomplete s hs
    rw [hcontour] at hcomplete
    exact Segment.not_hollow
      (Segment.placed_of_mem_all ⟨⟨hhalts, hcomplete.inner⟩, fun _ => hcomplete⟩ s hs)

/-- Users joined with their orders, of a certain age or with one of two names. -/
def someUsers : Json :=
  .obj [("table", .str "users"), ("alias", .str "u"),
    ("join", .arr [.obj [("table", .str "orders"), ("using", .arr [.str "id"])]]),
    ("where", .obj [("or", .arr [
      .obj [("age", .obj [("between", .obj [("gt", .num (.int 18)), ("lt", .num (.int 65))])])],
      .obj [("name", .obj [("in", .arr [.str "ann", .str "bob"])])]])])]

/-- Users of a certain age, or under a condition that is empty. -/
def hollowUsers : Json :=
  .obj [("table", .str "users"), ("where", .obj [("or", .arr [
    .obj [("age", .num (.int 1))], .obj [("and", .arr [])]])])]

theorem complete_of_statement_users :
    (∃ c ps, ({ dialect := .sqlite } : Config).statement .select someUsers = .ok c
      ∧ c.sql = "SELECT * FROM \"users\" AS \"u\" JOIN \"orders\" USING (\"id\") WHERE "
        ++ "(\"u\".\"age\" BETWEEN ? AND ? OR \"u\".\"name\" IN (?, ?))"
      ∧ pieces? .sqlite c.sql = some ps ∧ Complete (contourOf ps))
    ∧ ∃ c ps, ({ dialect := .sqlite } : Config).statement .select hollowUsers = .ok c
      ∧ c.sql = "SELECT * FROM \"users\" WHERE (\"age\" = ? OR )"
      ∧ pieces? .sqlite c.sql = some ps ∧ ¬ Complete (contourOf ps) := by
  constructor
  · obtain ⟨c, hc, hsql⟩ : ∃ c,
        ({ dialect := .sqlite } : Config).statement .select someUsers = .ok c
        ∧ c.sql = "SELECT * FROM \"users\" AS \"u\" JOIN \"orders\" USING (\"id\") WHERE "
          ++ "(\"u\".\"age\" BETWEEN ? AND ? OR \"u\".\"name\" IN (?, ?))" := ⟨_, rfl, rfl⟩
    obtain ⟨root, ps, hroot, hps, hcomplete, -⟩ := complete_of_statement hc
    refine ⟨c, ps, hc, hsql, hps, hcomplete ?_⟩
    cases hroot
    rw [Segment.all_eq_upTo 8 rfl]
    decide
  · obtain ⟨c, hc, hsql⟩ : ∃ c, ({ dialect := .sqlite } : Config).statement .select hollowUsers
        = .ok c ∧ c.sql = "SELECT * FROM \"users\" WHERE (\"age\" = ? OR )" := ⟨_, rfl, rfl⟩
    obtain ⟨root, ps, hroot, hps, -, hhollow⟩ := complete_of_statement hc
    refine ⟨c, ps, hc, hsql, hps, fun hcomplete => ?_⟩
    have hnone := hhollow hcomplete
    cases hroot
    rw [Segment.all_eq_upTo 8 rfl] at hnone
    revert hnone
    decide

end Config

end QueryTree
