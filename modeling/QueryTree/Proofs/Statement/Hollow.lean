import QueryTree.Proofs.Nesting.Complete
import QueryTree.Proofs.Nesting.Tree
import QueryTree.Proofs.Statement.Composition

/-!
# Segments that leave a place blank

Some lists and conditions are refused if they are empty, others are written all the same. Then there
is nothing after the word of a clause, on one side of a connective, or in the parentheses of a list.

* `Segment.face`, `Segment.isBlank`: what shows of a segment; a blank one writes nothing.
* `Segment.isHollow`: segments that leave a place blank that must not be.
* `Segment.joinable_body`, `Segment.joinable_of_all`: what is written without hollow segments has no
  blanks, for one segment whose children have none and for all.
-/

namespace QueryTree

open Fragment (word words spaced commas parens call Shows Inline Frames Holds)

/-! ## Segments that write nothing -/

/-- Whether a comparison is about anything. -/
def Subject.isSome : Subject → Bool
  | .none => false
  | .column _ | .expression _ => true

theorem Subject.isSome_fragment? (scope : Scope) (subject : Subject) :
    (subject.fragment? scope).isSome = subject.isSome := by
  cases subject <;> rfl

theorem Subject.inline (scope : Scope) (subject : Subject) :
    ∀ f ∈ subject.fragment? scope, Inline f := by
  cases subject with
  | none => exact inline_of_mem_none
  | column key => exact inline_of_mem_some ((shows_column scope key).inline (by simp))
  | expression core =>
      exact inline_of_mem_some ((core.shows_fragment scope).inline core.face_ne_clausal)

namespace Segment

/-- What shows of a segment in another one. -/
def face : Segment → Face
  | .expr _ _ e => e.face
  | .core _ c => c.face
  | .entry subject _ _ e => e.face subject.isSome
  | .group subject _ _ entries => conditionFace subject.isSome entries
  | .pair _ _ _ (.condition entries) => conditionFace true entries
  | .pair .. => .exposed
  | .query .. | .write .. | .delete .. => .closed

theorem shows_fragment (s : Segment) : Shows s.face s.fragment := by
  cases s with
  | expr place scope e => exact e.shows_fragment place scope
  | core scope c => exact c.shows_fragment scope
  | entry subject junction scope e =>
      rw [face, ← subject.isSome_fragment? scope]
      exact e.shows_fragment junction scope (subject.inline scope)
  | group subject junction scope entries =>
      rw [face, ← subject.isSome_fragment? scope]
      exact shows_group junction scope (subject.inline scope) entries
  | pair outer inner column e =>
      have hcolumn : ∀ scope, Inline (Token.column scope column) :=
        fun scope => (shows_column scope column).inline (by simp)
      cases e with
      | condition entries =>
          exact shows_group .and _ (inline_of_mem_some (hcolumn _)) entries
      | text token =>
          exact shows_equals (hcolumn outer) ((shows_column inner token).inline (by simp))
      | _ =>
          exact shows_equals (hcolumn outer)
            ((Expr.shows_fragment .value inner _).inline (Expr.face_ne_clausal _))
  | query outer build q => exact fun _ => rfl
  | write outer w => exact fun _ => rfl
  | delete safeMode outer d => exact fun _ => rfl

/-- Whether a segment writes nothing. -/
def isBlank (s : Segment) : Bool :=
  s.face == .blank

theorem contour_eq_nil_iff {s : Segment} (h : s.fragment.halts = false) :
    s.fragment.contour = [] ↔ s.isBlank = true := by
  rw [Fragment.contour_eq_nil_iff, s.shows_fragment h, isBlank, beq_iff_eq]

/-! ## Segments that leave a place blank -/

/-- Whether one of several operands is blank. -/
def lacksOperand (operands : List Segment) : Bool :=
  decide (2 ≤ operands.length) && operands.any isBlank

/-- Whether a condition has no operands, or a blank one. -/
def lacksCondition (operands : List Segment) : Bool :=
  operands.isEmpty || operands.any isBlank

/-- Whether nothing is written for the items of a list. -/
def lacksItems : List Segment → Bool
  | [] => true
  | [item] => item.isBlank
  | _ => false

end Segment

/-- Whether nothing is written in the list of a comparison. -/
def Comparison.isHollow : Comparison → Bool
  | .among _ _ items => Segment.lacksItems items
  | _ => false

/-- Whether a join is written without what its rows are matched by. -/
def Join.isHollow (parent : String) (scope : Scope) : Join → Bool
  | ⟨_, matching, q⟩ =>
    let outer := scope.target parent (some parent) none
    let inner := outer.target q.table (some q.qualifier) none
    match matching with
    | .unmatched => false
    | .shared columns => columns.isEmpty
    | .pairs pairs =>
      Segment.lacksCondition (pairs.map fun (column, e) => .pair outer inner column e)

namespace Segment

/-- Whether a segment leaves a place blank that must not be: what follows `WHERE`, `HAVING`, `ON`,
`SET` or `WHEN`, the condition of `IF`, a list after `USING`, `IN` or `CONCAT`, an operand of a
connective, or the lower bound of `BETWEEN`. -/
def isHollow : Segment → Bool
  | .core scope (.concat values none _ encryption _) =>
    let inner := scope.withCall encryption
    decide (inner.dialect ≠ .sqlite) && lacksItems (values.map (.expr .column inner))
  | .core scope (.choice check _ _) => lacksCondition (check.map (.entry .none .and scope))
  | .core scope (.cases branches _) =>
    branches.any fun (check, _) => lacksCondition (check.map (.entry .none .and scope))
  | .entry subject junction scope (.all conditions)
  | .entry subject junction scope (.any conditions) =>
    lacksOperand (conditions.map (.group subject junction scope))
  | .entry _ _ scope (.between low _) => isBlank (.expr .value scope low)
  | .entry _ junction scope (.compare comparator operand) =>
    (Comparison.ofOperand junction scope comparator operand).isHollow
  | .entry _ _ scope (.column key operand) =>
    match operand with
    | .condition _ => false
    | operand => (Comparison.ofColumn scope key operand).isHollow
  | .group subject junction scope entries =>
    lacksOperand (entries.map (.entry subject junction scope))
  | .query outer _ q =>
    let scope := q.scope outer
    (filterSegments q.junction scope q.filter).any isBlank
      || (filterSegments q.junction scope q.having).any isBlank
      || q.joins.any (Join.isHollow (q.alias?.getD q.table) scope)
  | .write outer w =>
    let scope := outer.target w.table w.alias? w.encryption
    w.filter.isSome
      && (w.rows.any List.isEmpty || (filterSegments w.junction scope w.filter).any isBlank)
  | .delete _ outer d =>
    let scope := outer.target d.table d.alias? d.encryption
    (filterSegments d.junction scope d.filter).any isBlank
  | _ => false

/-- Whether the upper bound of `BETWEEN` is blank. What stands after the comparison is taken for it
then. -/
def lacksUpperBound : Segment → Bool
  | .entry _ _ scope (.between _ high) => isBlank (.expr .value scope high)
  | _ => false

end Segment

/-! ## Texts without hollow segments -/

open Permit.Lenient (permits mild)

namespace Segment

/-- All segments of a list can stand beside others. -/
def Joins (ss : List Segment) : Prop :=
  ∀ s ∈ ss, Permit.joinable false s.fragment

theorem joins_cons {s : Segment} {ss : List Segment} :
    Joins (s :: ss) ↔ Permit.joinable false s.fragment ∧ Joins ss :=
  List.forall_mem_cons

theorem joins_append {ss ts : List Segment} : Joins (ss ++ ts) ↔ Joins ss ∧ Joins ts :=
  List.forall_mem_append

theorem Joins.fragments {ss : List Segment} (h : Joins ss) :
    ∀ f ∈ fragments ss, Permit.joinable false f :=
  List.forall_mem_map.2 h

theorem joins_singleton {s : Segment} : Joins [s] ↔ Permit.joinable false s.fragment :=
  List.forall_mem_singleton

/-- Segments that are not blank may stand where something is asked for. -/
theorem Joins.fills {ss : List Segment} (h : Joins ss) (hblank : ss.any isBlank = false) :
    ∀ f ∈ Segment.fragments ss, f.Fills := by
  refine List.forall_mem_map.2 fun s hs hhalts => ⟨h s hs hhalts, fun hnil => ?_⟩
  exact List.any_eq_false.1 hblank s hs ((contour_eq_nil_iff hhalts).1 hnil)

theorem Joins.fills_condition {ss : List Segment} (h : Joins ss)
    (hlacks : lacksCondition ss = false) (junction : Junction) :
    (junction.chain (Segment.fragments ss)).Fills := by
  obtain ⟨hempty, hblank⟩ := Bool.or_eq_false_iff.1 hlacks
  exact fills_chain junction (h.fills hblank) (by simpa using hempty)

/-- Something is written for the items of a list. -/
theorem Joins.items {ss : List Segment} (hlacks : lacksItems ss = false)
    (hhalts : (commas (Segment.fragments ss)).halts = false) :
    (commas (Segment.fragments ss)).contour ≠ [] := by
  rw [Ne, contour_commas_eq_nil]
  match ss with
  | [] => cases hlacks
  | [item] =>
      rintro (hnil | ⟨f, hf, hnil⟩)
      · cases hnil
      · cases hf
        rw [lacksItems, (contour_eq_nil_iff hhalts).1 hnil] at hlacks
        cases hlacks
  | _ :: _ :: _ => rintro (hnil | ⟨f, hf, -⟩) <;> simp_all

theorem Joins.nest {ss : List Segment} (h : Joins ss) (hlacks : lacksOperand ss = false)
    (junction : Junction) : Permit.joinable false (junction.nest (Segment.fragments ss)) := by
  refine joinable_nest junction h.fragments fun hlength => h.fills ?_
  simpa [lacksOperand, (by simpa using hlength : 2 ≤ ss.length)] using hlacks

theorem Joins.group {ss : List Segment} (h : Joins ss) (hlacks : lacksOperand ss = false)
    (junction : Junction) : Permit.joinable false (junction.group (Segment.fragments ss)) := by
  unfold Junction.group
  split
  · exact fun hhalts => by cases hhalts
  · exact h.nest hlacks junction

theorem joinable_expr (place : Place) (scope : Scope) {e : Expr}
    (h : Joins (exprChildren scope e)) :
    Permit.joinable false (e.fragment place scope) := by
  cases e with
  | null => exact permits isMild_null
  | bool b => exact permits rfl
  | number n => exact permits rfl
  | text token => exact permits (isMild_placed place scope token)
  | list items => exact fun hhalts => by cases hhalts
  | wrapper w =>
      obtain ⟨c, compare, alias?⟩ := w
      cases compare with
      | none => cases c <;> exact joins_singleton.1 h
      | some entries => exact joins_singleton.1 h
  | condition entries => exact joins_singleton.1 h

theorem joinable_core (scope : Scope) {c : Core} (hhollow : (Segment.core scope c).isHollow = false)
    (h : Joins (coreChildren scope c)) : Permit.joinable false (c.fragment scope) := by
  cases c with
  | concat values separator cast encryption steps =>
      obtain ⟨hvalues, hsteps⟩ := joins_append.1 h
      have hjoined : Permit.joinable false (concatFragment (scope.withCall encryption).dialect
          separator (exprFragments .column (scope.withCall encryption) values)) := by
        rw [← fragments_exprs]
        refine joinable_concat _ separator hvalues.fragments fun hd hseparator => ?_
        subst hseparator
        have hsqlite : scope.dialect ≠ .sqlite := by simpa using hd
        exact Joins.items (by simpa [isHollow, hsqlite] using hhollow)
      refine (((Frames.part _).castOptional _ cast).stringSteps _ steps).joinable ?_
      exact List.forall_mem_append.2 ⟨by simpa using hjoined, hsteps.fragments⟩
  | choice check yes no =>
      obtain ⟨hcheck, hresults⟩ := joins_append.1 h
      obtain ⟨hyes, hno⟩ := joins_cons.1 hresults
      have hchain := hcheck.fills_condition hhollow .and
      rw [fragments_entries] at hchain
      simp only [Core.fragment]
      split
      · exact joinable_choice hchain hyes (joins_singleton.1 hno)
      · exact fun hhalts => by cases hhalts
  | cases branches otherwise =>
      obtain ⟨hbranches, hlast⟩ := joins_append.1 h
      have hfirst : Permit.joinable true (branchFragment scope branches) := by
        clear h hlast
        induction branches with
        | nil => exact permits rfl
        | cons branch branches ih =>
            obtain ⟨check, result⟩ := branch
            obtain ⟨hbranch, hrest⟩ := joins_append.1 (List.flatMap_cons ▸ hbranches)
            obtain ⟨hcheck, hresult⟩ := joins_append.1 hbranch
            obtain ⟨hlacks, hlacks'⟩ := Bool.or_eq_false_iff.1 hhollow
            have hchain := hcheck.fills_condition hlacks .and
            rw [fragments_entries] at hchain
            have hthen := joinable_looseClause ["THEN"] (by decide)
              (fun hhalts => (joins_singleton.1 hresult hhalts).toInside)
            exact joinable_append (joinable_append (joinable_clause (by decide) hchain) hthen)
              (ih hlacks' hrest)
      have hbody : ∀ last, Permit.joinable true last →
          Permit.joinable false (.enclosed .cases (branchFragment scope branches ++ last)) :=
        fun last hlast =>
          (Frames.enclosed .cases (.leaf (joinable_append hfirst hlast))).joinable (by simp)
      cases otherwise with
      | none => exact hbody _ (permits rfl)
      | some e =>
          exact hbody _ (joinable_looseClause _ (by decide)
            fun hhalts => (joins_singleton.1 hlast hhalts).toInside)
  | _ => exact (Core.frames scope rfl).joinable h.fragments

theorem joinable_column (scope : Scope) (key : String) :
    Permit.joinable false (Token.column scope key) :=
  permits (isMild_column scope key)

theorem joinable_left (scope : Scope) {subject : Subject} (h : Joins (subject.segments scope))
    (comparison : String) :
    Permit.joinable false (leftOperand (subject.fragment? scope) comparison) := by
  cases subject with
  | none => exact fun hhalts => by cases hhalts
  | column key => exact joinable_column scope key
  | expression core => exact joins_singleton.1 h

end Segment

open Segment (Joins joins_cons joins_append joins_singleton joinable_column joinable_left)

namespace Comparison

/-- An operator that stands before an operand asks for nothing else, and lists stand after the word
for them. -/
def Regular : Comparison → Prop
  | .rows comparator _ | .compared comparator _ => ∀ w ∈ comparator.words, isMildWord w = true
  | .among _ comparator _ => comparator = .oneOf ∨ comparator = .noneOf
  | .refused _ | .isNull | .isNotNull => True

theorem regular_ofOperand (junction : Junction) (scope : Scope) (comparator : Comparator)
    (operand : Expr) : (ofOperand junction scope comparator operand).Regular := by
  have hmild : comparator ≠ .oneOf → comparator ≠ .noneOf →
      ∀ w ∈ comparator.words, isMildWord w = true := by
    cases comparator <;> decide
  unfold ofOperand
  split
  · exact hmild (by decide) (by decide)
  · exact hmild (by decide) (by decide)
  · trivial
  · trivial
  · exact .inl rfl
  · exact .inl rfl
  · exact .inr rfl
  · exact .inr rfl
  · exact .inl rfl
  · exact .inr rfl
  · have hplain := hmild ‹comparator = .oneOf → False› ‹comparator = .noneOf → False›
    split
    · trivial
    · split
      · trivial
      · split <;> exact hplain

theorem regular_ofColumn (scope : Scope) (key : String) (operand : Expr) :
    (ofColumn scope key operand).Regular := by
  unfold ofColumn
  split
  · exact .inl rfl
  · split
    · trivial
    · trivial
    · exact (by decide : ∀ w ∈ ["="], isMildWord w = true)

/-- A comparison whose list is not blank. -/
theorem joinable (d : Dialect) {left : Fragment} {ss : List Segment} {c : Comparison}
    (hleft : Joins ss → Permit.joinable false left) (hhollow : c.isHollow = false)
    (hregular : c.Regular) (h : Joins (c.segments ss)) :
    Permit.joinable false (c.fragment d left) := by
  have htest : ∀ w ∈ ["IS", "NOT", "NULL"], Permit.joinable false (word w) := fun w hw =>
    mild ((by decide : ∀ w ∈ ["IS", "NOT", "NULL"], isMildWord w = true) w hw)
  cases c with
  | refused e => exact fun hhalts => by cases hhalts
  | rows comparator q =>
      have hwords : Permit.joinable false (Fragment.words comparator.words) :=
        permits (Fragment.isMild_words hregular)
      exact joinable_spaced (by simpa [hwords] using joins_singleton.1 h)
  | isNull => exact joinable_spaced (by simp [hleft h, htest])
  | isNotNull => exact joinable_spaced (by simp [hleft h, htest])
  | among field comparator items =>
      obtain ⟨hss, hitems⟩ := joins_append.1 h
      exact joinable_inList field comparator (hleft hss) hitems.fragments (Joins.items hhollow)
  | compared comparator operand =>
      obtain ⟨hss, hoperand⟩ := joins_append.1 h
      exact joinable_compareWith d hregular (hleft hss) (joins_singleton.1 hoperand)

end Comparison

namespace Segment

theorem joinable_wrapperEntry (scope : Scope) {subject : Subject} {w : Wrapper}
    (h : Joins (entryChildren subject .and scope (.wrapper w))) : Permit.joinable false
      (wrapperEntry (subject.fragment? scope) w.compare.isSome (w.fragment scope)) := by
  obtain ⟨hleft, hright⟩ := joins_append.1 h
  have hw : Permit.joinable false (w.fragment scope) := joins_singleton.1 hright
  have hequals : Permit.joinable false (Fragment.tokens [.space, .word "=", .space]) :=
    permits (by decide)
  have hcrossed : ∀ {left : Fragment}, Permit.joinable false left → Permit.joinable false
      (.crossed left (Fragment.tokens [.space, .word "=", .space] ++ w.fragment scope)) :=
    fun hleft =>
      (Frames.crossed (.leaf hleft) (.leaf (joinable_append hequals hw))).joinable (by simp)
  cases hcompare : w.compare.isSome with
  | true => cases subject <;> exact hw
  | false =>
      rw [hcompare] at hleft
      cases subject with
      | none => exact hw
      | column key => exact hcrossed (joinable_column scope key)
      | expression core => exact hcrossed (joins_singleton.1 hleft)

theorem joinable_entry {subject : Subject} {junction : Junction} {scope : Scope} {e : Entry}
    (hhollow : (Segment.entry subject junction scope e).isHollow = false)
    (hbound : (Segment.entry subject junction scope e).lacksUpperBound = false)
    (h : Joins (entryChildren subject junction scope e)) :
    Permit.joinable false (e.fragment (subject.fragment? scope) junction scope) := by
  cases e with
  | wrapper w => exact joinable_wrapperEntry scope h
  | all conditions =>
      have hnest := Joins.nest h hhollow .and
      rwa [entryChildren, fragments_groups] at hnest
  | any conditions =>
      have hnest := Joins.nest h hhollow .or
      rwa [entryChildren, fragments_groups] at hnest
  | between low high =>
      obtain ⟨hleft, hbounds⟩ := joins_append.1 h
      have hfills := hbounds.fills (Bool.or_eq_false_iff.2
        ⟨hhollow, Bool.or_eq_false_iff.2 ⟨hbound, rfl⟩⟩)
      exact joinable_between (joinable_left scope hleft _) (hfills _ (by simp)) (hfills _ (by simp))
  | compare comparator operand =>
      rw [Entry.fragment_compare]
      exact Comparison.joinable _ (fun hss => joinable_left scope hss _) hhollow
        (Comparison.regular_ofOperand junction scope comparator operand) h
  | column key operand =>
      cases operand with
      | condition entries => exact joins_singleton.1 h
      | _ =>
          rw [Entry.fragment_column]
          · exact Comparison.joinable _ (fun _ => joinable_column scope key) hhollow
              (Comparison.regular_ofColumn scope key _) h
          · rintro _ ⟨⟩

theorem joinable_pair {outer inner : Scope} {column : String} {e : Expr}
    (h : Joins (pairChildren outer inner column e)) :
    Permit.joinable false (pairFragment outer inner column e) := by
  have hcolumn := joinable_column outer column
  cases e with
  | null => exact joinable_equals hcolumn (permits isMild_null)
  | text token => exact joinable_equals hcolumn (joinable_column inner token)
  | condition entries => exact joins_singleton.1 h
  | _ => exact joinable_equals hcolumn (joins_singleton.1 h)

theorem joinable_filter {w : String} (hw : w ∈ ["WHERE", "HAVING", "ON", "WHEN"])
    {junction : Junction} {scope : Scope} {filter : Option Condition}
    (hblank : (filterSegments junction scope filter).any isBlank = false)
    (h : Joins (filterSegments junction scope filter)) :
    Permit.joinable true (conditionClause w junction (filterFragments junction scope filter)) := by
  rw [← fragments_filter]
  exact joinable_conditionClause hw junction (h.fills hblank)

/-- Words of statements that nothing has to follow. -/
theorem joinable_keyword : ∀ w ∈ ["SELECT", "FROM", "AS", "INSERT", "INTO", "VALUES", "DO",
    "UPDATE", "DELETE"], Permit.joinable true (word w) := by
  have hmild : ∀ w ∈ ["SELECT", "FROM", "AS", "INSERT", "INTO", "VALUES", "DO", "UPDATE", "DELETE"],
      (word w).isMild true = true := by decide
  exact fun w hw => permits (hmild w hw)

theorem joinable_path (name : String) : Permit.joinable true (.path name) :=
  permits rfl

theorem joinable_table (table : String) (alias? : Option String) :
    Permit.joinable true (tableFragment table alias?) := by
  cases alias? with
  | none => exact joinable_path table
  | some name => exact joinable_spaced (by simp [joinable_keyword, joinable_path])

theorem joinable_join {parent : String} {scope : Scope} {join : Join}
    (hhollow : join.isHollow parent scope = false) (h : Joins (joinSegments parent scope join)) :
    Permit.joinable true (join.fragment parent scope) := by
  obtain ⟨kind, matching, q⟩ := join
  obtain ⟨hquery, hpairs⟩ := joins_append.1 h
  have hwords : Permit.joinable true (words kind.words) := by
    refine permits ?_
    cases kind <;> decide
  refine joinable_append (joinable_spaced (List.forall_mem_cons.2
    ⟨hwords, List.forall_mem_singleton.2 ?_⟩)) ?_
  · split
    · next hderived =>
        rw [if_pos hderived] at hquery
        split
        · have hq : Permit.joinable true (parens (q.fragment scope none)) :=
            Permit.Lenient.widens (joins_singleton.1 hquery)
          exact joinable_spaced (by simp [hq, joinable_keyword, joinable_path])
        · exact fun hhalts => by cases hhalts
    · exact joinable_table q.table q.alias?
  · cases matching with
    | unmatched => exact permits rfl
    | shared columns => exact joinable_using (by simpa [Join.isHollow] using hhollow)
    | pairs pairs =>
        have hchain := Joins.fills_condition hpairs hhollow .and
        rw [Matching.fragment, pairFragments_eq]
        refine joinable_clause (by decide) ?_
        rwa [fragments, List.map_map] at hchain

theorem joinable_joins {parent : String} {scope : Scope} {joins : List Join}
    (hhollow : joins.any (Join.isHollow parent scope) = false)
    (h : Joins (joins.flatMap (joinSegments parent scope))) :
    Permit.joinable true (joinsFragment parent scope joins) := by
  induction joins with
  | nil => exact permits rfl
  | cons join joins ih =>
      obtain ⟨hjoin, hjoins⟩ := joins_append.1 (List.flatMap_cons ▸ h)
      obtain ⟨hhollow, hhollow'⟩ := Bool.or_eq_false_iff.1 hhollow
      exact joinable_append (joinable_append (permits rfl) (joinable_join hhollow hjoin))
        (ih hhollow' hjoins)

theorem joinable_items {scope : Scope} {items : List Expr}
    (h : Joins (items.map (.expr .column scope))) :
    ∀ f ∈ itemFragments scope items, Permit.joinable true f := by
  induction items with
  | nil => exact List.forall_mem_nil _
  | cons e items ih =>
      obtain ⟨he, hitems⟩ := joins_cons.1 h
      have he : Permit.joinable true (e.fragment .column scope) := Permit.Lenient.widens he
      cases e with
      | wrapper w =>
          have haliased : Permit.joinable true (aliased w.alias? (w.fragment scope)) :=
            ((Frames.leaf he).aliased w.alias?).joinable (by simp)
          exact List.forall_mem_cons.2 ⟨haliased, ih hitems⟩
      | _ => exact List.forall_mem_cons.2 ⟨he, ih hitems⟩

theorem joinable_sortKey (scope : Scope) (outputs : List String) (token : String) :
    Permit.joinable true (sortKey scope outputs token) := by
  unfold sortKey
  split
  · exact permits rfl
  · exact permits (isMild_column scope token)

theorem joinable_keys {scope : Scope} (outputs : List String) {keys : List Expr}
    (h : Joins (keys.flatMap (keySegments scope))) :
    ∀ f ∈ keyFragments scope outputs keys, Permit.joinable true f := by
  induction keys with
  | nil => exact List.forall_mem_nil _
  | cons e keys ih =>
      obtain ⟨he, hkeys⟩ := joins_append.1 (List.flatMap_cons ▸ h)
      cases e with
      | text token =>
          exact List.forall_mem_cons.2 ⟨joinable_sortKey scope outputs token, ih hkeys⟩
      | _ =>
          exact List.forall_mem_cons.2
            ⟨Permit.Lenient.widens (joins_singleton.1 he), ih hkeys⟩

theorem joinable_listClause (keywords : List String) (hw : (words keywords).isMild true = true)
    {fs : List Fragment} (h : ∀ f ∈ fs, Permit.joinable true f) :
    Permit.joinable true (listClause keywords fs) := by
  unfold listClause
  split
  · exact permits rfl
  · exact joinable_looseClause keywords hw (joinable_commas h)

theorem joinable_order (scope : Scope) (outputs : List String) (keys : List (String × SortOrder)) :
    ∀ f ∈ orderFragments scope outputs keys, Permit.joinable true f := by
  refine List.forall_mem_map.2 fun (key, order) _ => ?_
  have horder : Permit.joinable true (word order.keyword) := by
    refine mild ?_
    cases order <;> decide
  exact joinable_spaced (by simp [joinable_sortKey, horder])

theorem joinable_limit (d : Dialect) (limit offset : Option Nat) :
    Permit.joinable true (limitFragment d limit offset) := by
  have hvalue : ∀ n, Permit.joinable true (.value (.ofNat n)) := fun n => permits rfl
  have hunbounded : ∀ unbounded ∈ d.unboundedLimit, Permit.joinable true (word unbounded) := by
    intro unbounded hunbounded
    refine mild ?_
    cases d <;> cases hunbounded <;> decide
  refine joinable_append ?_ ?_
  · split
    · exact joinable_looseClause _ (by decide) (hvalue _)
    · split
      · next unbounded h => exact joinable_looseClause _ (by decide) (hunbounded unbounded h)
      · exact permits rfl
    · exact permits rfl
  · split
    · exact joinable_looseClause _ (by decide) (hvalue _)
    · exact permits rfl

theorem joinable_query {outer : Scope} {build : Option (JsonOptions × JsonBody)} {q : Query}
    (hhollow : (Segment.query outer build q).isHollow = false)
    (h : Joins (queryChildren outer build q)) :
    Permit.joinable true (Segment.query outer build q).body := by
  obtain ⟨h, hhaving⟩ := joins_append.1 h
  obtain ⟨h, hkeys⟩ := joins_append.1 h
  obtain ⟨h, hfilter⟩ := joins_append.1 h
  obtain ⟨hitems, hjoins⟩ := joins_append.1 h
  obtain ⟨hhollow, hjoinsHollow⟩ := Bool.or_eq_false_iff.1 hhollow
  obtain ⟨hfilterBlank, hhavingBlank⟩ := Bool.or_eq_false_iff.1 hhollow
  have hselected : Permit.joinable true
      ((build.map fun (options, body) scope => body.fragment options scope).elim
        (if q.select.isEmpty then word "*" else commas (itemFragments (q.scope outer) q.select))
        fun g => g (q.scope outer)) := by
    cases build with
    | some built => exact (Frames.jsonBody built.1 _ built.2).joinable hitems.fragments
    | none =>
        simp only [Option.map_none, Option.elim_none]
        split
        · exact mild (by decide)
        · exact joinable_commas (joinable_items hitems)
  have hhead := joinable_spaced (List.forall_mem_cons.2 ⟨joinable_keyword "SELECT" (by simp),
    List.forall_mem_cons.2 ⟨hselected, List.forall_mem_cons.2
      ⟨joinable_keyword "FROM" (by simp), List.forall_mem_singleton.2
        (joinable_table q.table q.alias?)⟩⟩⟩)
  have hkept := joinable_listClause ["GROUP", "BY"] (by decide)
    (joinable_keys (outputAliases q.select) hkeys)
  have hsorted := joinable_listClause ["ORDER", "BY"] (by decide)
    (joinable_order (q.scope outer) (outputAliases q.select) q.orderBy)
  rw [body, Query.fragment_eq]
  refine joinable_append (joinable_append (joinable_append (joinable_append (joinable_append
    (joinable_append hhead ?_) ?_) hkept) ?_) hsorted) (joinable_limit _ _ _)
  · exact joinable_joins hjoinsHollow hjoins
  · exact joinable_filter (by decide) hfilterBlank hfilter
  · exact joinable_filter (by decide) hhavingBlank hhaving

theorem joinable_cell (w : Write) {scope : Scope} (column : String) {e : Expr}
    (h : Joins (cellSegments scope e)) : Permit.joinable false (w.cell scope column e) := by
  have hplain : Permit.joinable false (Write.plainCell scope column e) := by
    cases e with
    | text token => exact permits rfl
    | list items => exact fun hhalts => by cases hhalts
    | condition entries => exact fun hhalts => by cases hhalts
    | _ => exact joins_singleton.1 h
  unfold Write.cell
  split
  · exact ((Frames.leaf hplain).cipher scope .encrypt _).joinable (by simp)
  · exact hplain

theorem joinable_assignments (w : Write) {scope : Scope} {row : Row}
    (h : Joins (rowCells scope row)) : Permit.joinable true (w.assignments scope row) := by
  refine joinable_commas (List.forall_mem_map.2 fun (column, e) he => ?_)
  have hcell := joinable_cell w column fun s hs => h s (List.mem_flatMap.2 ⟨_, he, hs⟩)
  exact Permit.Lenient.widens (joinable_equals (permits rfl) hcell)

theorem head_assignments (w : Write) (scope : Scope) {row : Row} (h : row ≠ []) :
    (w.assignments scope row).contour.head? = some .atom := by
  obtain ⟨⟨column, e⟩, rest, rfl⟩ := List.exists_cons_of_ne_nil h
  cases rest with
  | nil => simp [Write.assignments, commas, Fragment.join, equals, Fragment.contour]
  | cons next rest => simp [Write.assignments, commas, Fragment.join, equals, Fragment.contour]

theorem joinable_paths (names : List String) :
    ∀ f ∈ names.map Fragment.path, Permit.joinable true f :=
  List.forall_mem_map.2 fun _ _ => permits rfl

theorem joinable_tuple (w : Write) {scope : Scope} {first row : Row} (index : Nat)
    (h : Joins (tupleSegments scope first row)) :
    Permit.joinable true (w.tuple scope first index row) := by
  unfold Write.tuple
  split
  · refine joinable_parens (joinable_commas (List.forall_mem_map.2 fun (column, e) he => ?_))
    dsimp only
    split
    · next cell hcell =>
        refine Permit.Lenient.widens (joinable_cell w column fun s hs => ?_)
        exact h s (List.mem_flatMap.2 ⟨_, he, by simpa [hcell] using hs⟩)
    · exact fun hhalts => by cases hhalts
  · exact fun hhalts => by cases hhalts

theorem joinable_upsert (w : Write) {scope : Scope} (h : Joins (rowCells scope w.upsert)) :
    Permit.joinable true (w.upsertFragment scope) := by
  have hassignments := joinable_assignments w h
  unfold Write.upsertFragment
  split
  · exact permits rfl
  · next hempty =>
      have hhead := head_assignments w scope (by simpa using hempty)
      cases scope.dialect with
      | mysql => exact joinable_onClause (by decide) (by decide) hassignments
      | postgresql | sqlite =>
          dsimp only
          split
          · exact fun hhalts => by cases hhalts
          · have hindexes : Permit.joinable true
                (parens (commas (w.indexes.map Fragment.path))) :=
              joinable_parens (joinable_commas (joinable_paths w.indexes))
            refine joinable_onClause (by decide) (by decide) ?_
            exact joinable_set [_, word "DO", word "UPDATE"]
              (by simp [hindexes, joinable_keyword]) hhead hassignments

theorem joinable_insert {w : Write} {outer : Scope} (h : Joins
    (w.rows.flatMap (tupleSegments (outer.target w.table none w.encryption) (w.rows.headD []))
      ++ rowCells (outer.target w.table none w.encryption) w.upsert)) :
    Permit.joinable true (w.insertFragment outer) := by
  obtain ⟨htuples, hupsert⟩ := joins_append.1 h
  unfold Write.insertFragment
  split
  · exact fun hhalts => by cases hhalts
  · next first rest hrows =>
      have hfirst : w.rows.headD [] = first := by rw [hrows]; rfl
      rw [hfirst] at htuples
      have hcolumns : Permit.joinable true
          (parens (commas (first.map fun (column, _) => Fragment.path column))) :=
        joinable_parens (joinable_commas (List.forall_mem_map.2 fun _ _ => permits rfl))
      have hvalues : Permit.joinable true (commas (w.rows.mapIdx
          (w.tuple (outer.target w.table none w.encryption) first))) := by
        refine joinable_commas fun f hf => ?_
        obtain ⟨index, hindex, rfl⟩ := List.mem_mapIdx.1 hf
        exact joinable_tuple w index fun s hs =>
          htuples s (List.mem_flatMap.2 ⟨_, List.getElem_mem hindex, hs⟩)
      refine joinable_append (joinable_spaced ?_) (joinable_upsert w hupsert)
      simp [joinable_keyword, joinable_path, hcolumns, hvalues]

theorem joinable_update {w : Write} {outer : Scope}
    (hrows : w.rows.any List.isEmpty = false)
    (hblank : (filterSegments w.junction (outer.target w.table w.alias? w.encryption)
      w.filter).any isBlank = false)
    (h : Joins (w.rows.flatMap (rowCells (outer.target w.table w.alias? w.encryption))
      ++ filterSegments w.junction (outer.target w.table w.alias? w.encryption) w.filter)) :
    Permit.joinable true (w.updateFragment outer) := by
  obtain ⟨hcells, hfilter⟩ := joins_append.1 h
  unfold Write.updateFragment
  split
  · next row hrow =>
      split
      · rw [hrow, List.flatMap_singleton] at hcells
        rw [hrow] at hrows
        refine joinable_append ?_ (joinable_filter (by decide) hblank hfilter)
        refine joinable_set [word "UPDATE", tableFragment w.table w.alias?] ?_ ?_ ?_
        · simp [joinable_keyword, joinable_table]
        · exact head_assignments w _ (by simpa using hrows)
        · exact joinable_assignments w hcells
      · exact fun hhalts => by cases hhalts
  · exact fun hhalts => by cases hhalts

theorem joinable_delete {safeMode : Bool} {outer : Scope} {d : Delete}
    (hhollow : (Segment.delete safeMode outer d).isHollow = false)
    (h : Joins (Segment.delete safeMode outer d).children) :
    Permit.joinable true (d.fragment safeMode outer) := by
  unfold Delete.fragment
  split
  · exact fun hhalts => by cases hhalts
  · exact joinable_append (joinable_spaced (by simp [joinable_keyword, joinable_table]))
      (joinable_filter (by decide) hhollow h)

/-- A segment that leaves no place blank, of parts that leave none. -/
theorem joinable_body {s : Segment} (hhollow : s.isHollow = false)
    (hbound : s.lacksUpperBound = false) (h : Joins s.children) :
    Permit.joinable s.isWhole s.body := by
  cases s with
  | expr place scope e => exact joinable_expr place scope h
  | core scope c => exact joinable_core scope hhollow h
  | entry subject junction scope e => exact joinable_entry hhollow hbound h
  | group subject junction scope entries =>
      have hgroup := Joins.group h hhollow junction
      rwa [children, fragments_entries] at hgroup
  | pair outer inner column e => exact joinable_pair h
  | query outer build q => exact joinable_query hhollow h
  | write outer w =>
      have h : Joins (writeChildren outer w) := h
      simp only [body, Write.fragment]
      unfold writeChildren at h
      split at h
      · next hfilter =>
          rw [if_pos hfilter]
          simp only [isHollow, hfilter, Bool.true_and, Bool.or_eq_false_iff] at hhollow
          exact joinable_update hhollow.1 hhollow.2 h
      · next hfilter =>
          rw [if_neg hfilter]
          exact joinable_insert h
  | delete safeMode outer d => exact joinable_delete hhollow h

theorem joinable_fragment {s : Segment} (h : Permit.joinable s.isWhole s.body) :
    Permit.joinable false s.fragment := by
  unfold fragment
  cases hwhole : s.isWhole with
  | true =>
      rw [hwhole] at h
      exact joinable_parens h
  | false =>
      rw [hwhole] at h
      exact h

/-- **A text without hollow segments has no blanks.** -/
theorem joinable_of_all (s : Segment)
    (h : ∀ t ∈ s.all, t.isHollow = false ∧ t.lacksUpperBound = false) :
    Permit.joinable s.isWhole s.body := by
  induction s using Segment.induction with
  | step s ih =>
      rw [s.all_eq, List.forall_mem_append, List.forall_mem_singleton] at h
      refine joinable_body h.2.1 h.2.2 fun child hchild => joinable_fragment ?_
      exact ih child hchild fun t ht => h.1 t (List.mem_flatMap.2 ⟨child, hchild, ht⟩)

end Segment

end QueryTree
