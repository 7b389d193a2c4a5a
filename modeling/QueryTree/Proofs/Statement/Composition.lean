import QueryTree.Proofs.Statement.Segment

/-!
# What segments write around their children

Each segment writes its children in their order, and some lexemes of its own around them. Most
shapes of expressions write nothing but mild lexemes of their own.

* `Core.frames`: the expressions of these shapes.
* `Entry.fragment_compare`, `Entry.fragment_column`: comparisons by what they amount to.
* `Segment.exists_body_query`: a query writes its counts of rows after its children.
* `Segment.holds_body`: each segment holds its children.
* `Segment.yields_all`: what is gathered from the traces of the children, and added to at each
  segment, is gathered from the trace of the whole.
-/

namespace QueryTree

open Fragment (word spaced commas parens call Holds Frames)
open Permit.Lenient (permits mild)

/-! ## Lists of fragments -/

theorem exprFragments_eq (place : Place) (scope : Scope) (es : List Expr) :
    exprFragments place scope es = es.map (Expr.fragment place scope) := by
  induction es with
  | nil => rw [exprFragments, List.map_nil]
  | cons e es ih => rw [exprFragments, List.map_cons, ih]

theorem entryFragments_eq (parent : Option Fragment) (junction : Junction) (scope : Scope)
    (entries : List Entry) : entryFragments parent junction scope entries
      = entries.map (Entry.fragment parent junction scope) := by
  induction entries with
  | nil => rw [entryFragments, List.map_nil]
  | cons entry entries ih => rw [entryFragments, List.map_cons, ih]

theorem groupFragments_eq (parent : Option Fragment) (junction : Junction) (scope : Scope)
    (conditions : List (List Entry)) : groupFragments parent junction scope conditions
      = conditions.map fun entries =>
        junction.group (entryFragments parent junction scope entries) := by
  induction conditions with
  | nil => rw [groupFragments, List.map_nil]
  | cons entries conditions ih => rw [groupFragments, List.map_cons, ih]

theorem pairFragments_eq (outer inner : Scope) (pairs : List (String × Expr)) :
    pairFragments outer inner pairs
      = pairs.map fun (column, e) => pairFragment outer inner column e := by
  induction pairs with
  | nil => rw [pairFragments, List.map_nil]
  | cons pair pairs ih =>
      obtain ⟨column, e⟩ := pair
      rw [List.map_cons, ← ih]
      cases e <;> rw [pairFragments] <;> first | rfl | simp

/-! ## Segments around their children -/

namespace Segment

@[simp] theorem fragment_expr (place : Place) (scope : Scope) (e : Expr) :
    (expr place scope e).fragment = e.fragment place scope := rfl

@[simp] theorem fragment_core (scope : Scope) (c : Core) :
    (core scope c).fragment = c.fragment scope := rfl

/-- What is written for segments, in their order. -/
abbrev fragments (ss : List Segment) : List Fragment :=
  ss.map fragment

theorem fragments_exprs (place : Place) (scope : Scope) (es : List Expr) :
    fragments (es.map (.expr place scope)) = exprFragments place scope es := by
  rw [exprFragments_eq]
  exact List.map_map

theorem fragments_entries (subject : Subject) (junction : Junction) (scope : Scope)
    (entries : List Entry) : fragments (entries.map (.entry subject junction scope))
      = entryFragments (subject.fragment? scope) junction scope entries := by
  rw [entryFragments_eq]
  exact List.map_map

theorem fragments_groups (subject : Subject) (junction : Junction) (scope : Scope)
    (conditions : List (List Entry)) : fragments (conditions.map (.group subject junction scope))
      = groupFragments (subject.fragment? scope) junction scope conditions := by
  rw [groupFragments_eq]
  exact List.map_map

theorem fragments_filter (junction : Junction) (scope : Scope) (filter : Option Condition) :
    fragments (filterSegments junction scope filter) = filterFragments junction scope filter := by
  cases filter with
  | none => rfl
  | some entries => exact fragments_entries .none junction scope entries

end Segment

open Segment (fragments fragments_exprs fragments_entries)

/-- Whether a shape writes words that ask for something beside them. -/
def Core.asks : Core → Bool
  | .concat .. | .choice .. | .cases .. => true
  | _ => false

section Lenient

variable {ok : Permit} [Permit.Lenient ok] {inside : Bool} {f : Fragment} {gs : List Fragment}

namespace Fragment.Frames

theorem pad (scope : Scope) {function : String} (hw : isMildWord function = true)
    (h : Frames ok inside f gs) (pad? : Option Pad) :
    Frames ok inside (padFragment scope function f pad?)
      (gs ++ fragments (pad?.toList.flatMap (Pad.segments scope))) := by
  cases pad? with
  | none => simpa [padFragment] using h
  | some pad =>
      obtain ⟨length, pattern⟩ := pad
      cases pattern with
      | none =>
          have hspace : ok true (.text " ") := permits rfl
          have hparts := FramesAll.cons h.toInside
            (.part (length.fragment .column scope) (.skip hspace .nil))
          exact (hparts.call hw).congr (by simp [Pad.segments])
      | some pattern =>
          have hparts := FramesAll.cons h.toInside (.part (length.fragment .column scope)
            (.part (pattern.fragment .value scope) .nil))
          exact (hparts.call hw).congr (by simp [Pad.segments])

theorem stringSteps (scope : Scope) (steps : List StringStep) (h : Frames ok inside f gs) :
    Frames ok inside (stringFragment scope f steps)
      (gs ++ fragments (steps.flatMap (StringStep.segments scope))) := by
  induction steps generalizing f gs with
  | nil => simpa [stringFragment] using h
  | cons step rest ih =>
      -- what one step adds stands before what the others add
      have hstep : ∀ {g : Fragment}, Frames ok inside g (gs ++ fragments (step.segments scope)) →
          Frames ok inside (stringFragment scope g rest)
            (gs ++ fragments ((step :: rest).flatMap (StringStep.segments scope))) := by
        intro g hg
        exact (ih hg).congr (by simp [fragments])
      have hplain : step.segments scope = [] → Frames ok inside f
          (gs ++ fragments (step.segments scope)) := by
        intro hnil
        simpa [hnil] using h
      cases step with
      | trim side =>
          refine hstep (call ?_ (hplain rfl) (by simp))
          cases side <;> decide
      | substr start length =>
          have hparts := FramesAll.cons h.toInside
            (.parts (fragments ((StringStep.substr start length).segments scope)))
          have hcall : isMildWord scope.dialect.substrFunction = true := by
            cases scope.dialect <;> decide
          cases length with
          | none => exact hstep (hparts.call hcall)
          | some length => exact hstep (hparts.call hcall)
      | padding left right =>
          rw [stringFragment]
          split
          · exact h.halted _ _
          · refine hstep ?_
            have hleft : isMildWord "LPAD" = true := by decide
            have hright : isMildWord "RPAD" = true := by decide
            exact ((h.pad scope hleft left).pad scope hright right).congr
              (by simp [StringStep.segments])
      | textCase kind =>
          refine hstep (call ?_ (hplain rfl) (by simp))
          cases kind <;> decide
      | reverse =>
          rw [stringFragment]
          split
          · exact h.halted _ _
          · exact hstep (call (by decide) (hplain rfl) (by simp))
      | replace target replacement =>
          have hparts := FramesAll.cons h.toInside
            (.parts (fragments ((StringStep.replace target replacement).segments scope)))
          exact hstep (hparts.call (by decide))
      | encoding charset =>
          rw [stringFragment]
          split
          · refine hstep ?_
            have hspace : ok true (Fragment.tokens [.space]) := permits rfl
            have hbody := (h.toInside.append (.leaf hspace)).append
              (.leaf (Permit.Lenient.charset charset))
            have hword : Frames ok inside (word "CONVERT") [] := .leaf (mild (by decide))
            exact (hword.append (.enclosed .parens hbody)).congr (by simp [StringStep.segments])
          · exact h.halted _ _

theorem numberSteps (scope : Scope) (steps : List NumberStep) (h : Frames ok inside f gs) :
    Frames ok inside (numberFragment scope f steps)
      (gs ++ fragments (steps.flatMap (NumberStep.segments scope))) := by
  induction steps generalizing f gs with
  | nil => simpa [numberFragment] using h
  | cons step rest ih =>
      have hstep : ∀ {g : Fragment}, Frames ok inside g (gs ++ fragments (step.segments scope)) →
          Frames ok inside (numberFragment scope g rest)
            (gs ++ fragments ((step :: rest).flatMap (NumberStep.segments scope))) := by
        intro g hg
        exact (ih hg).congr (by simp [fragments])
      cases step with
      | power exponent =>
          have hparts := FramesAll.cons h.toInside
            (.parts (fragments ((NumberStep.power exponent).segments scope)))
          exact hstep (hparts.call (by decide))
      | arithmetic operation operand =>
          have hparts := FramesAll.cons h.toInside
            (.parts (fragments ((NumberStep.arithmetic operation operand).segments scope)))
          refine hstep (.enclosed .parens (hparts.operated ?_))
          cases operation <;> decide
      | rounding r =>
          refine hstep ?_
          simpa [NumberStep.segments] using h.rounding scope.dialect r

theorem jsonBody (options : JsonOptions) (scope : Scope) (body : JsonBody) :
    Frames ok inside (body.fragment options scope) (fragments (body.segments scope)) := by
  have harray : isMildWord scope.dialect.jsonArrayFunction = true := by
    cases scope.dialect <;> decide
  cases body with
  | object fields =>
      have hfields : FramesAll ok true (fieldFragments scope fields)
          (fragments ((JsonBody.object fields).segments scope)) := by
        induction fields with
        | nil => exact .nil
        | cons field fields ih =>
            obtain ⟨key, e⟩ := field
            have hkey : Frames ok true (scope.dialect.textOperand (.text key)) [] :=
              textOperand _ (.leaf (permits rfl))
            rw [fieldFragments]
            exact .cons hkey (.part _ ih)
      have hobject : isMildWord scope.dialect.jsonObjectFunction = true := by
        cases scope.dialect <;> decide
      exact collect _ options (hfields.call hobject)
  | array items =>
      rw [JsonBody.segments, fragments_exprs]
      exact collect _ options ((FramesAll.parts _).call harray)
  | single value =>
      have hvalue : Frames ok inside (value.fragment .column scope)
          (fragments ((JsonBody.single value).segments scope)) := .part _
      exact collect _ options (.ite hvalue (hvalue.call harray (by simp)))

theorem aggregated (scope : Scope) (kind : AggregateKind) (value : Expr) (distinct : Bool) :
    Frames ok inside (Fragment.call kind.function
      [if distinct then spaced ["DISTINCT", value.fragment .column scope]
        else value.fragment .column scope])
      [value.fragment .column scope] := by
  have hargument : Frames ok true
      (if distinct then spaced ["DISTINCT", value.fragment .column scope]
        else value.fragment .column scope) [value.fragment .column scope] := by
    have hdistinct : ok true (word "DISTINCT") := mild (by decide)
    exact .ite (FramesAll.skip hdistinct (.part _ .nil)).spaced (.part _)
  have hfunction : isMildWord kind.function = true := by
    cases kind <;> decide
  exact (FramesAll.cons hargument .nil).call hfunction

end Fragment.Frames

/-- Expressions of all other shapes write nothing but mild lexemes around their children. -/
theorem Core.frames (scope : Scope) {c : Core} (h : c.asks = false) :
    Frames ok inside (c.fragment scope) (fragments (Segment.coreChildren scope c)) := by
  have hprepared : ∀ (prepare : Preparation) (value : Expr),
      Frames ok inside (prepare.apply (scope.withCall prepare.encryption)
        (value.fragment .column (scope.withCall prepare.encryption)))
        [(Segment.expr .column (scope.withCall prepare.encryption) value).fragment] :=
    fun prepare value => .preparation _ prepare (.part _)
  cases c with
  | string value prepare steps => exact (hprepared prepare value).stringSteps scope steps
  | number value prepare steps => exact (hprepared prepare value).numberSteps scope steps
  | date value prepare change => exact (hprepared prepare value).dateChange scope.dialect change
  | json options body source =>
      cases source with
      | none => exact (Frames.jsonBody options scope body).jsonOptions scope.dialect options
      | some q =>
          exact .jsonOptions scope.dialect options
            (.part (Segment.query scope (some (options, body)) q).fragment)
  | refer q => exact .part _
  | aggregate kind value distinct ifNull cast encryption =>
      have hvalue : Frames ok inside _ _ :=
        .aggregated (scope.withCall encryption) kind value distinct
      cases ifNull with
      | none => exact hvalue.castOptional _ cast
      | some e =>
          have hfunction :
              isMildWord (scope.withCall encryption).dialect.ifNullFunction = true := by
            cases (scope.withCall encryption).dialect <;> decide
          exact .castOptional _
            ((FramesAll.cons hvalue.toInside (.part _ .nil)).call hfunction) cast
  | all | any | between => exact .fail _ _
  | concat | choice | cases => cases h

end Lenient

/-! ## Segments hold their children -/

namespace Segment

theorem holds_left (scope : Scope) (subject : Subject) (comparison : String) :
    (leftOperand (subject.fragment? scope) comparison).Holds
      (fragments (subject.segments scope)) := by
  cases subject with
  | none => exact .fail _ _
  | column key => exact .none _
  | expression core => exact .part _

theorem holds_wrapperEntry (scope : Scope) (subject : Subject) (w : Wrapper) :
    (wrapperEntry (subject.fragment? scope) w.compare.isSome (w.fragment scope)).Holds
      (fragments ((if w.compare.isSome then [] else subject.segments scope)
        ++ [.expr .value scope (.wrapper w)])) := by
  have hw : (w.fragment scope).Holds (fragments [.expr .value scope (.wrapper w)]) := .part _
  -- the sides are bound in the other order, but written in this one
  have hcrossed : ∀ left : Fragment, left.Holds (fragments (subject.segments scope)) →
      (Fragment.crossed left
        (Fragment.tokens [.space, .word "=", .space] ++ w.fragment scope)).Holds
        (fragments (subject.segments scope ++ [.expr .value scope (.wrapper w)])) := by
    intro left hleft
    exact (hleft.crossed (Holds.after _ hw)).congr (by simp)
  cases hcompare : w.compare.isSome with
  | true => cases subject <;> exact hw
  | false =>
      cases subject with
      | none => exact hw
      | column key => exact hcrossed _ (.none _)
      | expression core => exact hcrossed _ (.part _)

end Segment

theorem Entry.fragment_compare (parent : Option Fragment) (junction : Junction) (scope : Scope)
    (comparator : Comparator) (operand : Expr) :
    (Entry.compare comparator operand).fragment parent junction scope
      = (Comparison.ofOperand junction scope comparator operand).fragment scope.dialect
        (leftOperand parent comparator.operator) := by
  have hitems : ∀ field c items, inList field c (leftOperand parent comparator.operator)
      (exprFragments .value scope items)
        = (Comparison.among field c (items.map (.expr .value scope))).fragment scope.dialect
          (leftOperand parent comparator.operator) := by
    intro field c items
    rw [Comparison.fragment, ← fragments, fragments_exprs]
  -- what is written unless the operand or the comparator is special
  have hplain : (if comparator = .eq && operand.isNull then
        isNullTest (leftOperand parent comparator.operator)
      else if comparator = .notEq && operand.isNull then
        isNotNullTest (leftOperand parent comparator.operator)
      else
        compareWith scope.dialect comparator (leftOperand parent comparator.operator)
          (operand.fragment .value scope))
      = (if comparator = .eq && operand.isNull then Comparison.isNull
        else if comparator = .notEq && operand.isNull then .isNotNull
        else .compared comparator (.expr .value scope operand)).fragment scope.dialect
          (leftOperand parent comparator.operator) := by
    split
    · rfl
    · split <;> rfl
  cases operand with
  | list items =>
      cases comparator
      case eq | notEq | oneOf | noneOf => exact hitems _ _ items
      all_goals rfl
  | condition entries => cases comparator <;> rfl
  | wrapper w =>
      obtain ⟨c, compare, alias?⟩ := w
      cases c <;> cases comparator <;> rfl
  | null => cases comparator <;> rfl
  | bool b => cases comparator <;> rfl
  | number n => cases comparator <;> rfl
  | text token =>
      cases comparator
      case eq | notEq => exact hplain
      all_goals rfl

theorem Entry.fragment_column (parent : Option Fragment) (junction : Junction) (scope : Scope)
    (key : String) {operand : Expr} (h : ∀ entries, operand ≠ .condition entries) :
    (Entry.column key operand).fragment parent junction scope
      = (Comparison.ofColumn scope key operand).fragment scope.dialect
        (Token.column scope key) := by
  cases operand with
  | condition entries => exact absurd rfl (h entries)
  | list items =>
      change _ = inList key .oneOf _ (fragments (items.map (.expr .value scope)))
      rw [fragments_exprs]
      rfl
  | text token =>
      simp only [Entry.fragment, Comparison.ofColumn]
      rcases nullTest? (.text token) with _ | _ | _ <;> rfl
  | _ => rfl

theorem HoldsAll.flatMap {α : Type} {fragment : α → Fragment} {parts : α → List Segment}
    (h : ∀ a, (fragment a).Holds (fragments (parts a))) (as : List α) :
    HoldsAll (as.map fragment) (fragments (as.flatMap parts)) := by
  induction as with
  | nil => exact .nil
  | cons a as ih =>
      rw [List.flatMap_cons, fragments, List.map_append]
      exact .cons (h a) ih

theorem HoldsAll.mapIdx {α : Type} {fragment : Nat → α → Fragment} {parts : α → List Segment}
    (h : ∀ i a, (fragment i a).Holds (fragments (parts a))) (as : List α) :
    HoldsAll (as.mapIdx fragment) (fragments (as.flatMap parts)) := by
  induction as generalizing fragment with
  | nil => exact .nil
  | cons a as ih =>
      rw [List.mapIdx_cons, List.flatMap_cons, fragments, List.map_append]
      exact .cons (h 0 a) (ih fun i a => h (i + 1) a)

theorem Comparison.holds (d : Dialect) {left : Fragment} {ss : List Segment}
    (h : left.Holds (fragments ss)) (c : Comparison) :
    (c.fragment d left).Holds (fragments (c.segments ss)) := by
  cases c with
  | refused e => exact .fail _ _
  | rows comparator q => exact (FramesAll.skip trivial (.part _ .nil)).spaced
  | isNull => exact (FramesAll.lead h fun _ _ => trivial).spaced
  | isNotNull => exact (FramesAll.lead h fun _ _ => trivial).spaced
  | among field comparator items =>
      rw [segments, fragments, List.map_append]
      exact HoldsAll.inList field comparator h (.parts _)
  | compared comparator operand =>
      rw [segments, fragments, List.map_append]
      exact h.compareWith d comparator (.part _)

namespace Segment

theorem holds_expr (place : Place) (scope : Scope) (e : Expr) :
    (e.fragment place scope).Holds (fragments (exprChildren scope e)) := by
  cases e with
  | wrapper w =>
      obtain ⟨c, compare, alias?⟩ := w
      cases compare with
      | none => cases c <;> exact .part _
      | some entries => exact .part _
  | condition entries => exact .part _
  | _ => exact .none _

theorem holds_core (scope : Scope) (c : Core) :
    (c.fragment scope).Holds (fragments (coreChildren scope c)) := by
  have hchain : ∀ entries : List Entry,
      (Junction.and.chain (entryFragments none .and scope entries)).Holds
        (fragments (entries.map (.entry .none .and scope))) := by
    intro entries
    rw [fragments_entries]
    exact HoldsAll.chain .and (.parts _)
  cases c with
  | concat values separator cast encryption steps =>
      have hjoined : (concatFragment (scope.withCall encryption).dialect separator
          (exprFragments .column (scope.withCall encryption) values)).Holds
          (fragments (values.map (.expr .column (scope.withCall encryption)))) := by
        rw [fragments_exprs]
        exact HoldsAll.concat _ separator (.parts _)
      exact ((hjoined.castOptional _ cast).stringSteps _ steps).congr
        (by simp [coreChildren, fragments])
  | choice check yes no =>
      rw [coreChildren, fragments, List.map_append]
      refine .ite ?_ (.fail _ _)
      exact HoldsAll.call "IF" (.cons (hchain check) (.part _ (.part _ .nil)))
  | cases branches otherwise =>
      have hbranches : (branchFragment scope branches).Holds
          (fragments (branches.flatMap fun branch =>
            branch.1.map (.entry .none .and scope) ++ [.expr .value scope branch.2])) := by
        induction branches with
        | nil => exact .none _
        | cons branch branches ih =>
            obtain ⟨check, result⟩ := branch
            rw [branchFragment]
            have hcheck := Holds.clause ["WHEN"] (hchain check)
            have hresult : (clause ["THEN"] (result.fragment .value scope)).Holds
                (fragments [.expr .value scope result]) := .clause _ (.part _)
            exact ((hcheck.append hresult).append ih).congr (by simp [fragments])
      rw [coreChildren, fragments, List.map_append]
      cases otherwise with
      | none => exact .enclosed .cases (hbranches.append (.leaf trivial))
      | some e => exact .enclosed .cases (hbranches.append (Holds.clause _ (.part _)))
  | _ => exact Core.frames scope rfl

theorem holds_entry (subject : Subject) (junction : Junction) (scope : Scope) (e : Entry) :
    (e.fragment (subject.fragment? scope) junction scope).Holds
      (fragments (entryChildren subject junction scope e)) := by
  cases e with
  | wrapper w => exact holds_wrapperEntry scope subject w
  | all conditions =>
      rw [entryChildren, fragments_groups]
      exact HoldsAll.nest .and (.parts _)
  | any conditions =>
      rw [entryChildren, fragments_groups]
      exact HoldsAll.nest .or (.parts _)
  | between low high =>
      rw [entryChildren, fragments, List.map_append]
      refine ((FramesAll.cons (holds_left scope subject "between")
        (.skip trivial (.part _ (.skip trivial (.part _ .nil))))).spaced)
  | compare comparator operand =>
      rw [Entry.fragment_compare]
      exact Comparison.holds _ (holds_left scope subject _) _
  | column key operand =>
      cases operand with
      | condition entries => exact .part _
      | _ =>
          rw [Entry.fragment_column]
          · exact Comparison.holds _ (.none _) _
          · rintro _ ⟨⟩

theorem holds_pair (outer inner : Scope) (column : String) (e : Expr) :
    (pairFragment outer inner column e).Holds
      (fragments (pairChildren outer inner column e)) := by
  cases e with
  | null => exact .none _
  | text token => exact .none _
  | condition entries => exact .part _
  | _ => exact (Fragment.Holds.none _).related _ (.part _)

theorem holds_filter (keyword : String) (junction : Junction) (scope : Scope)
    (filter : Option Condition) :
    (conditionClause keyword junction (filterFragments junction scope filter)).Holds
      (fragments (filterSegments junction scope filter)) := by
  rw [fragments_filter]
  exact HoldsAll.conditionClause keyword junction (.parts _)

theorem holds_joins (parent : String) (scope : Scope) (joins : List Join) :
    (joinsFragment parent scope joins).Holds
      (fragments (joins.flatMap (joinSegments parent scope))) := by
  have hjoin : ∀ join : Join, (join.fragment parent scope).Holds
      (fragments (joinSegments parent scope join)) := by
    rintro ⟨kind, matching, q⟩
    simp only [joinSegments, fragments, List.map_append]
    refine .append ?_ ?_
    · refine (FramesAll.skip trivial (.cons ?_ .nil)).spaced.congr (List.append_nil _)
      split
      · split
        · exact (FramesAll.lead (.part _) fun _ _ => trivial).spaced
        · exact .fail _ _
      · exact Fragment.Holds.none _
    · cases matching with
      | unmatched => exact Fragment.Holds.none _
      | shared columns => exact Fragment.Holds.none _
      | pairs pairs =>
          rw [Matching.fragment, pairFragments_eq, List.map_map]
          exact Holds.clause _ (HoldsAll.chain .and (.parts _))
  induction joins with
  | nil => exact .none _
  | cons join joins ih =>
      rw [joinsFragment, List.flatMap_cons, fragments, List.map_append]
      exact (Holds.after _ (hjoin join)).append ih

theorem holds_items (scope : Scope) (items : List Expr) :
    HoldsAll (itemFragments scope items) (fragments (items.map (.expr .column scope))) := by
  induction items with
  | nil => exact .nil
  | cons e items ih =>
      have hitem : HoldsAll (itemFragments scope (e :: items))
          ([e.fragment .column scope] ++ fragments (items.map (.expr .column scope))) := by
        cases e with
        | wrapper w => exact .cons (.aliased w.alias? (.part _)) ih
        | _ => exact .part _ ih
      exact hitem

theorem holds_keys (scope : Scope) (outputs : List String) (keys : List Expr) :
    HoldsAll (keyFragments scope outputs keys) (fragments (keys.flatMap (keySegments scope))) := by
  induction keys with
  | nil => exact .nil
  | cons e keys ih =>
      cases e with
      | text token => exact .skip trivial ih
      | _ => exact .part _ ih

/-- A query writes its children, and after them how many rows it gives. -/
theorem exists_body_query (outer : Scope) (build : Option (JsonOptions × JsonBody)) (q : Query) :
    ∃ front : Fragment, (Segment.query outer build q).body
        = front ++ limitFragment (q.scope outer).dialect q.limit q.offset
      ∧ front.Holds (fragments (queryChildren outer build q)) := by
  have hitems : ((build.map fun (options, body) scope => body.fragment options scope).elim
      (if q.select.isEmpty then word "*" else commas (itemFragments (q.scope outer) q.select))
      fun g => g (q.scope outer)).Holds
      (fragments (itemSegments (q.scope outer) build q.select)) := by
    cases build with
    | some built => exact Frames.jsonBody built.1 _ built.2
    | none =>
        have hselect := holds_items (q.scope outer) q.select
        cases hempty : q.select with
        | nil => exact .none _
        | cons e items => exact (hempty ▸ hselect).commas
  have hselected : ∀ {f : Fragment} {gs : List Fragment}, f.Holds gs →
      (spaced ["SELECT", f, "FROM", tableFragment q.table q.alias?]).Holds gs :=
    fun h => (FramesAll.skip trivial (.lead h fun _ _ => trivial)).spaced
  have hjoins := holds_joins (q.alias?.getD q.table) (q.scope outer) q.joins
  have hkeys := HoldsAll.listClause ["GROUP", "BY"]
    (holds_keys (q.scope outer) (outputAliases q.select) q.groupBy)
  have hfilter := holds_filter "WHERE" q.junction (q.scope outer) q.filter
  have hhaving := holds_filter "HAVING" q.junction (q.scope outer) q.having
  have hall := ((((hselected hitems).append hjoins).append hfilter).append hkeys).append hhaving
  rw [body, Query.fragment_eq]
  refine ⟨_, rfl, Frames.congr (Holds.before hall _) ?_⟩
  simp [queryChildren, fragments]

theorem holds_query (outer : Scope) (build : Option (JsonOptions × JsonBody)) (q : Query) :
    (Segment.query outer build q).body.Holds (fragments (queryChildren outer build q)) := by
  obtain ⟨front, hbody, hfront⟩ := exists_body_query outer build q
  rw [hbody]
  exact Holds.before hfront _

theorem holds_cell (write : Write) (scope : Scope) (column : String) (e : Expr) :
    (write.cell scope column e).Holds (fragments (cellSegments scope e)) := by
  have hplain : (Write.plainCell scope column e).Holds (fragments (cellSegments scope e)) := by
    cases e with
    | text token => exact .none _
    | list items => exact .fail _ _
    | condition entries => exact .fail _ _
    | _ => exact .part _
  unfold Write.cell
  split
  · exact hplain.cipher scope .encrypt _
  · exact hplain

theorem holds_assignments (write : Write) (scope : Scope) (row : Row) :
    (write.assignments scope row).Holds (fragments (rowCells scope row)) := by
  refine (HoldsAll.flatMap (fun (column, e) => ?_) row).commas
  exact (Fragment.Holds.none _).related _ (holds_cell write scope column e)

theorem holds_tuple (write : Write) (scope : Scope) (first : Row) (index : Nat) (row : Row) :
    (write.tuple scope first index row).Holds (fragments (tupleSegments scope first row)) := by
  refine .ite ?_ (.fail _ _)
  refine (HoldsAll.flatMap (fun (column, _) => ?_) first).commas.parens
  dsimp only
  cases row.lookup column with
  | none => exact .fail _ _
  | some e => simpa using holds_cell write scope column e

theorem holds_upsert (write : Write) (scope : Scope) :
    (write.upsertFragment scope).Holds (fragments (rowCells scope write.upsert)) := by
  have hassignments := holds_assignments write scope write.upsert
  unfold Write.upsertFragment
  split
  · next hempty =>
      rw [List.isEmpty_iff.1 hempty]
      exact .none _
  · cases scope.dialect with
    | mysql => exact .clause _ hassignments
    | postgresql | sqlite =>
        refine .ite (.fail _ _) (Holds.clause _ ?_)
        exact (HoldsAll.skips (.lead hassignments fun _ hf => absurd hf List.not_mem_nil)
          [parens (commas (write.indexes.map Fragment.path)), "DO", "UPDATE", "SET"]).spaced

theorem holds_insert (write : Write) (outer : Scope) :
    let scope := outer.target write.table none write.encryption
    (write.insertFragment outer).Holds
      (fragments (write.rows.flatMap (tupleSegments scope (write.rows.headD []))
        ++ rowCells scope write.upsert)) := by
  intro scope
  unfold Write.insertFragment
  split
  · exact .fail _ _
  · next first rest hrows =>
      have hhead : write.rows.headD [] = first := by rw [hrows]; rfl
      have htuples := (HoldsAll.mapIdx (holds_tuple write scope first) write.rows).commas
      have hrow := HoldsAll.skips (.lead htuples fun _ hf => absurd hf List.not_mem_nil)
        ["INSERT", "INTO", .path write.table,
          parens (commas (first.map fun (column, _) => Fragment.path column)), "VALUES"]
      rw [hhead, fragments, List.map_append]
      exact hrow.spaced.append (holds_upsert write scope)

theorem holds_update (write : Write) (outer : Scope) :
    let scope := outer.target write.table write.alias? write.encryption
    (write.updateFragment outer).Holds
      (fragments (write.rows.flatMap (rowCells scope)
        ++ filterSegments write.junction scope write.filter)) := by
  intro scope
  unfold Write.updateFragment
  split
  · next row hrows =>
      have hrow := HoldsAll.skips
        (.lead (holds_assignments write scope row) fun _ hf => absurd hf List.not_mem_nil)
        ["UPDATE", tableFragment write.table write.alias?, "SET"]
      rw [hrows, List.flatMap_singleton, fragments, List.map_append]
      exact .ite (hrow.spaced.append (holds_filter "WHERE" _ scope _)) (.fail _ _)
  · exact .fail _ _

/-- **Every segment writes its children, in their order.** -/
theorem holds_body (s : Segment) : s.body.Holds (fragments s.children) := by
  cases s with
  | expr place scope e => exact holds_expr place scope e
  | core scope c => exact holds_core scope c
  | entry subject junction scope e => exact holds_entry subject junction scope e
  | group subject junction scope entries =>
      rw [children, fragments_entries]
      exact HoldsAll.group junction (.parts _)
  | pair outer inner column e => exact holds_pair outer inner column e
  | query outer build q => exact holds_query outer build q
  | write outer w =>
      simp only [body, Write.fragment, children, writeChildren]
      split
      · exact holds_update w outer
      · exact holds_insert w outer
  | delete safeMode outer d =>
      exact .ite (.fail _ _) (Holds.after _ (holds_filter "WHERE" _ _ _))

end Segment

/-! ## What is gathered from the parts -/

/-- Wherever the fragment is bound, its trace is as stated. -/
def Fragment.Yields (dialect : Dialect) (Q : List Mark → Prop) (f : Fragment) : Prop :=
  ∀ ⦃n : Nat⦄ ⦃mode mode' : Option Cipher.Mode⦄ ⦃marks : List Mark⦄ ⦃stored : List Call⦄,
    Traces dialect f n mode marks stored mode' → Q marks

/-- A relation between what is gathered and a trace: what is found in two traces is found in the
one after the other. -/
structure Gathers {β : Type} (Q : List β → List Mark → Prop) : Prop where
  nil : ∀ marks, Q [] marks
  append : ∀ {xs ys marks marks'}, Q xs marks → Q ys marks' → Q (xs ++ ys) (marks ++ marks')

namespace Gathers

variable {α β : Type} {Q : List β → List Mark → Prop} {xs : List β} {marks : List Mark}

theorem before (hQ : Gathers Q) (h : Q xs marks) (after : List Mark) : Q xs (marks ++ after) := by
  simpa using hQ.append h (hQ.nil after)

theorem after (hQ : Gathers Q) (earlier : List Mark) (h : Q xs marks) : Q xs (earlier ++ marks) :=
  hQ.append (hQ.nil earlier) h

/-- What is found in the traces of all parts is found in the trace of the whole. -/
theorem yields {dialect : Dialect} {ok : Permit} {inside : Bool} {f : Fragment} (hQ : Gathers Q)
    {part : α → Fragment} {found : α → List β} {as : List α} (h : Frames ok inside f (as.map part))
    (hparts : ∀ a ∈ as, (part a).Yields dialect (Q (found a))) :
    f.Yields dialect (Q (as.flatMap found)) := by
  generalize hgs : as.map part = gs at h
  induction h generalizing as with
  | leaf h =>
      rw [List.map_eq_nil_iff.1 hgs]
      exact fun _ _ _ _ _ _ => hQ.nil _
  | part f =>
      obtain ⟨a, rfl, rfl⟩ := List.map_eq_singleton_iff.1 hgs
      simpa using hparts a List.mem_cons_self
  | fail e gs =>
      intro n mode mode' marks stored htraces
      cases htraces
  | enclosed delimiters h ih =>
      intro n mode mode' marks stored htraces
      cases htraces with
      | enclosed htraces => exact hQ.before (hQ.after _ (ih hparts hgs htraces)) _
  | append h h' ih ih' =>
      obtain ⟨as₁, as₂, rfl, hgs₁, hgs₂⟩ := List.map_eq_append_iff.1 hgs
      rw [List.forall_mem_append] at hparts
      intro n mode mode' marks stored htraces
      rw [List.flatMap_append]
      cases htraces with
      | append ht ht' => exact hQ.append (ih hparts.1 hgs₁ ht) (ih' hparts.2 hgs₂ ht')
  | crossed h h' ih ih' =>
      obtain ⟨as₁, as₂, rfl, hgs₁, hgs₂⟩ := List.map_eq_append_iff.1 hgs
      rw [List.forall_mem_append] at hparts
      intro n mode mode' marks stored htraces
      rw [List.flatMap_append]
      cases htraces with
      | crossed ht ht' => exact hQ.append (ih hparts.1 hgs₁ ht') (ih' hparts.2 hgs₂ ht)
  | led v h ih =>
      intro n mode mode' marks stored htraces
      cases htraces with
      | led htraces => exact hQ.after [_] (ih hparts hgs htraces)

end Gathers

/-- **What every segment adds to what its children yield is yielded by the whole.** It is enough
to look at the segments that add something. -/
theorem Segment.yields_all {β : Type} {dialect : Dialect} {Q : List β → List Mark → Prop}
    (hQ : Gathers Q) {own : Segment → Option β}
    (hown : ∀ s x, own s = some x → ∀ xs,
      (∀ f : Fragment, f.Holds (fragments s.children) → f.Yields dialect (Q xs)) →
      s.body.Yields dialect (Q (xs ++ [x])))
    (s : Segment) : s.body.Yields dialect (Q (s.all.filterMap own)) := by
  induction s using Segment.induction with
  | step s ih =>
      -- a segment in parentheses yields what it yields without them
      have hparts : ∀ child ∈ s.children,
          child.fragment.Yields dialect (Q (child.all.filterMap own)) := by
        intro child hchild
        unfold Segment.fragment
        split
        · intro n mode mode' marks stored htraces
          cases htraces with
          | enclosed htraces => exact hQ.before (hQ.after _ (ih child hchild htraces)) _
        · exact ih child hchild
      have hchildren : ∀ f : Fragment, f.Holds (fragments s.children) →
          f.Yields dialect (Q (s.children.flatMap fun child => child.all.filterMap own)) :=
        fun f hf => hQ.yields hf hparts
      rw [s.all_eq, List.filterMap_append, List.filterMap_flatMap]
      cases hx : own s with
      | none => simpa [hx] using hchildren _ s.holds_body
      | some x => simpa [hx] using hown s x hx _ hchildren

end QueryTree
