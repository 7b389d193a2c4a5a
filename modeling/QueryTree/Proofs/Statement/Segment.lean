import QueryTree.Proofs.Emission.Congruence
import QueryTree.Proofs.Emission.Frame
import QueryTree.Proofs.Options.Alike
import QueryTree.Proofs.Statement.Basic
import QueryTree.Proofs.Statement.Independence

/-!
# The segments of a statement

A statement is written segment by segment: each expression, condition and query writes its own
lexemes around what its children write. A segment that is written twice, as the left side of two
comparisons, is the child of two segments.

* `Segment`, `Segment.fragment`, `Segment.children`: segments, what they write, and the segments
  they are made of.
* `Segment.induction`, `Segment.all`: every segment is above its children; all segments of a
  segment, in the order in which their texts end.
* `Config.segment`: the segment of a whole statement.
-/

namespace QueryTree

open Fragment (word words spaced commas parens call Holds Frames)

/-! ## Segments -/

/-- The parts of a statement that write a text of their own, each with what is around it. -/
inductive Segment where
  | expr (place : Place) (scope : Scope) (e : Expr)
  | core (scope : Scope) (core : Core)
  | entry (subject : Subject) (junction : Junction) (scope : Scope) (entry : Entry)
  /-- Entries that are grouped as the operand of a comparison is. -/
  | group (subject : Subject) (junction : Junction) (scope : Scope) (entries : List Entry)
  /-- A column of an outer query and what it is compared with in a join. -/
  | pair (outer inner : Scope) (column : String) (e : Expr)
  /-- A query; a JSON value may be built in the place of its items. -/
  | query (outer : Scope) (build : Option (JsonOptions × JsonBody)) (query : Query)
  | write (outer : Scope) (write : Write)
  | delete (safeMode : Bool) (outer : Scope) (delete : Delete)

/-- A column of the outer query and what it is compared with. -/
def pairFragment (outer inner : Scope) (column : String) : Expr → Fragment
  | .text token => equals (Token.column outer column) (Token.column inner token)
  | .condition entries =>
    let scope := { inner with alias? := outer.alias? }
    Junction.and.group (entryFragments (some (Token.column scope column)) .and scope entries)
  | e => equals (Token.column outer column) (e.fragment .value inner)

namespace Segment

/-- What a segment writes. -/
def body : Segment → Fragment
  | .expr place scope e => e.fragment place scope
  | .core scope c => c.fragment scope
  | .entry subject junction scope e => e.fragment (subject.fragment? scope) junction scope
  | .group subject junction scope entries =>
    junction.group (entryFragments (subject.fragment? scope) junction scope entries)
  | .pair outer inner column e => pairFragment outer inner column e
  | .query outer build q =>
    q.fragment outer (build.map fun (options, body) scope => body.fragment options scope)
  | .write outer w => w.fragment outer
  | .delete safeMode outer d => d.fragment safeMode outer

/-- Whether a segment is a whole statement. -/
def isWhole : Segment → Bool
  | .query .. | .write .. | .delete .. => true
  | _ => false

/-- What a segment writes in another one: whole statements are in parentheses there. -/
def fragment (n : Segment) : Fragment :=
  if n.isWhole then parens n.body else n.body

end Segment

/-! ### Comparisons -/

/-- What a comparison amounts to, once its left side is known. -/
inductive Comparison where
  | refused (e : CompileError)
  /-- A query is tested for rows; there is no left side. -/
  | rows (comparator : Comparator) (q : Segment)
  | isNull
  | isNotNull
  /-- One of several, or none of them. -/
  | among (field : String) (comparator : Comparator) (items : List Segment)
  | compared (comparator : Comparator) (operand : Segment)

namespace Comparison

/-- What a comparison writes. -/
def fragment (dialect : Dialect) (left : Fragment) : Comparison → Fragment
  | .refused e => .fail e
  | .rows comparator q => spaced [words comparator.words, q.fragment]
  | .isNull => isNullTest left
  | .isNotNull => isNotNullTest left
  | .among field comparator items => inList field comparator left (items.map Segment.fragment)
  | .compared comparator operand => compareWith dialect comparator left operand.fragment

/-- The segments of a comparison, with those of its left side. -/
def segments (left : List Segment) : Comparison → List Segment
  | .refused _ => []
  | .rows _ q => [q]
  | .isNull | .isNotNull => left
  | .among _ _ items => left ++ items
  | .compared _ operand => left ++ [operand]

/-- A comparator and its operand. -/
def ofOperand (junction : Junction) (scope : Scope) (comparator : Comparator) (operand : Expr) :
    Comparison :=
  match comparator, operand with
  | .hasRows, .wrapper ⟨.refer q, _, _⟩ | .hasNoRows, .wrapper ⟨.refer q, _, _⟩ =>
    .rows comparator (.query scope none q)
  | .hasRows, _ | .hasNoRows, _ => .refused (.invalid comparator.operator (.expected .subquery))
  | .eq, .list items | .oneOf, .list items =>
    .among comparator.operator .oneOf (items.map (.expr .value scope))
  | .notEq, .list items | .noneOf, .list items =>
    .among comparator.operator .noneOf (items.map (.expr .value scope))
  | .oneOf, operand | .noneOf, operand =>
    .among comparator.operator comparator [.expr .value scope operand]
  | comparator, operand =>
    if comparator = .eq && operand.isNull then .isNull
    else if comparator = .notEq && operand.isNull then .isNotNull
    else
      match operand, comparator.wildcards with
      | .condition entries, none => .compared comparator (.group .none junction scope entries)
      | operand, _ => .compared comparator (.expr .value scope operand)

/-- A column and what it is compared with, unless that is a condition. -/
def ofColumn (scope : Scope) (key : String) (operand : Expr) : Comparison :=
  match operand with
  | .list items => .among key .oneOf (items.map (.expr .value scope))
  | operand =>
    match nullTest? operand with
    | some true => .isNull
    | some false => .isNotNull
    | none => .compared .eq (.expr .value scope operand)

end Comparison

/-! ### Children -/

/-- What is written on the left side of a comparison. -/
def Subject.segments (scope : Scope) : Subject → List Segment
  | .expression core => [.core scope core]
  | .none | .column _ => []

/-- The length and the pattern of a padding. -/
def Pad.segments (scope : Scope) : Pad → List Segment
  | ⟨length, pattern⟩ => .expr .column scope length :: pattern.toList.map (.expr .value scope)

/-- The expressions that a step brings along to change a text. -/
def StringStep.segments (scope : Scope) : StringStep → List Segment
  | .substr start length =>
    .expr .column scope start :: length.toList.map (.expr .column scope)
  | .padding left right =>
    left.toList.flatMap (Pad.segments scope) ++ right.toList.flatMap (Pad.segments scope)
  | .replace target replacement => [.expr .value scope target, .expr .value scope replacement]
  | .trim _ | .textCase _ | .reverse | .encoding _ => []

/-- The operand of a step that changes a number. -/
def NumberStep.segments (scope : Scope) : NumberStep → List Segment
  | .power operand | .arithmetic _ operand => [.expr .column scope operand]
  | .rounding _ => []

/-- The values that a JSON value is built of. -/
def JsonBody.segments (scope : Scope) : JsonBody → List Segment
  | .object fields => fields.map fun (_, e) => .expr .column scope e
  | .array items => items.map (.expr .column scope)
  | .single value => [.expr .column scope value]

/-- The entries of a condition that may be absent. -/
def filterSegments (junction : Junction) (scope : Scope) (filter : Option Condition) :
    List Segment :=
  (filter.getD []).map (.entry .none junction scope)

namespace Segment

/-- The segments of an expression; a combinator is an entry of its own. -/
def exprChildren (scope : Scope) : Expr → List Segment
  | .wrapper ⟨c, some entries, _⟩ => [.group (.expression c) .and scope entries]
  | .wrapper ⟨.all conditions, none, _⟩ => [.entry .none .and scope (.all conditions)]
  | .wrapper ⟨.any conditions, none, _⟩ => [.entry .none .and scope (.any conditions)]
  | .wrapper ⟨.between low high, none, _⟩ => [.entry .none .and scope (.between low high)]
  | .wrapper ⟨c, none, _⟩ => [.core scope c]
  | .condition entries => [.group .none .and scope entries]
  | .null | .bool _ | .number _ | .text _ | .list _ => []

/-- The segments of a wrapper before it is compared. -/
def coreChildren (scope : Scope) : Core → List Segment
  | .string value prepare steps =>
    .expr .column (scope.withCall prepare.encryption) value
      :: steps.flatMap (StringStep.segments scope)
  | .number value prepare steps =>
    .expr .column (scope.withCall prepare.encryption) value
      :: steps.flatMap (NumberStep.segments scope)
  | .date value prepare _ => [.expr .column (scope.withCall prepare.encryption) value]
  | .concat values _ _ encryption steps =>
    let inner := scope.withCall encryption
    values.map (.expr .column inner) ++ steps.flatMap (StringStep.segments inner)
  | .choice check yes no =>
    check.map (.entry .none .and scope) ++ [.expr .value scope yes, .expr .value scope no]
  | .cases branches otherwise =>
    (branches.flatMap fun (check, result) =>
        check.map (.entry .none .and scope) ++ [.expr .value scope result])
      ++ otherwise.toList.map (.expr .value scope)
  | .json _ body none => body.segments scope
  | .json options body (some q) => [.query scope (some (options, body)) q]
  | .refer q => [.query scope none q]
  | .aggregate _ value _ ifNull _ encryption =>
    let inner := scope.withCall encryption
    .expr .column inner value :: ifNull.toList.map (.expr .value inner)
  | .all _ | .any _ | .between .. => []

/-- The segments of an entry, with those of its left side. -/
def entryChildren (subject : Subject) (junction : Junction) (scope : Scope) : Entry → List Segment
  | .wrapper w =>
    (if w.compare.isSome then [] else subject.segments scope) ++ [.expr .value scope (.wrapper w)]
  | .all conditions | .any conditions => conditions.map (.group subject junction scope)
  | .between low high =>
    subject.segments scope ++ [.expr .value scope low, .expr .value scope high]
  | .compare comparator operand =>
    (Comparison.ofOperand junction scope comparator operand).segments (subject.segments scope)
  | .column key (.condition entries) => [.group (.column key) junction scope entries]
  | .column key operand => (Comparison.ofColumn scope key operand).segments []

/-- The right side of a pair; a text is a column there and has no segment of its own. -/
def pairChildren (outer inner : Scope) (column : String) : Expr → List Segment
  | .null | .text _ => []
  | .condition entries =>
    [.group (.column column) .and { inner with alias? := outer.alias? } entries]
  | e => [.expr .value inner e]

/-- The joined query, if it is written out, and how its rows are matched. -/
def joinSegments (parent : String) (scope : Scope) : Join → List Segment
  | ⟨_, matching, q⟩ =>
    let outer := scope.target parent (some parent) none
    let inner := outer.target q.table (some q.qualifier) none
    (if q.isDerived then [.query scope none q] else [])
      ++ match matching with
        | .unmatched | .shared _ => []
        | .pairs pairs => pairs.map fun (column, e) => .pair outer inner column e

/-- A key to group by; a text has no segment of its own. -/
def keySegments (scope : Scope) : Expr → List Segment
  | .text _ => []
  | e => [.expr .column scope e]

/-- The items of a query, or what is built in their place. -/
def itemSegments (scope : Scope) (build : Option (JsonOptions × JsonBody)) (items : List Expr) :
    List Segment :=
  match build with
  | some (_, body) => body.segments scope
  | none => items.map (.expr .column scope)

/-- The segments of a query, clause by clause. -/
def queryChildren (outer : Scope) (build : Option (JsonOptions × JsonBody)) (q : Query) :
    List Segment :=
  let scope := q.scope outer
  itemSegments scope build q.select
    ++ q.joins.flatMap (joinSegments (q.alias?.getD q.table) scope)
    ++ filterSegments q.junction scope q.filter ++ q.groupBy.flatMap (keySegments scope)
    ++ filterSegments q.junction scope q.having

/-- The value of a column, unless it is a text given as data. -/
def cellSegments (scope : Scope) : Expr → List Segment
  | .text _ | .list _ | .condition _ => []
  | e => [.expr .value scope e]

/-- The values of a row, in its own order. -/
def rowCells (scope : Scope) (row : Row) : List Segment :=
  row.flatMap fun (_, e) => cellSegments scope e

/-- The values of a row, in the order of the columns of the first row. -/
def tupleSegments (scope : Scope) (first row : Row) : List Segment :=
  first.flatMap fun (column, _) => (row.lookup column).toList.flatMap (cellSegments scope)

/-- The segments of a statement that writes: with a filter it is an update. -/
def writeChildren (outer : Scope) (write : Write) : List Segment :=
  if write.filter.isSome then
    let scope := outer.target write.table write.alias? write.encryption
    write.rows.flatMap (rowCells scope) ++ filterSegments write.junction scope write.filter
  else
    let scope := outer.target write.table none write.encryption
    write.rows.flatMap (tupleSegments scope (write.rows.headD [])) ++ rowCells scope write.upsert

/-- The segments that a segment is made of, in the order of the text. -/
def children : Segment → List Segment
  | .expr _ scope e => exprChildren scope e
  | .core scope c => coreChildren scope c
  | .entry subject junction scope e => entryChildren subject junction scope e
  | .group subject junction scope entries => entries.map (.entry subject junction scope)
  | .pair outer inner column e => pairChildren outer inner column e
  | .query outer build q => queryChildren outer build q
  | .write outer w => writeChildren outer w
  | .delete _ outer d =>
    filterSegments d.junction (outer.target d.table d.alias? d.encryption) d.filter

end Segment

/-! ## Every segment is above its children -/

/-- A measure of what a comparison writes on its left side. -/
noncomputable def Subject.size : Subject → Nat
  | .expression core => sizeOf core
  | .none | .column _ => 0

namespace Segment

/-- A measure that every segment has more of than its children. -/
noncomputable def size : Segment → Nat
  | .expr _ _ e => 2 * sizeOf e
  | .core _ c => 2 * sizeOf c
  | .entry subject _ _ e => 2 * (subject.size + sizeOf e) + 1
  | .group subject _ _ entries => 2 * (subject.size + sizeOf entries)
  | .pair _ _ _ e => 2 * sizeOf e + 1
  | .query _ build q => 2 * (sizeOf q + (build.map fun (_, body) => sizeOf body).getD 0)
  | .write _ w => 2 * sizeOf w
  | .delete _ _ d => 2 * sizeOf d

/-- All segments of a list are smaller than a bound. -/
def Below (bound : Nat) (ss : List Segment) : Prop :=
  ∀ s ∈ ss, s.size < bound

variable {bound : Nat}

theorem below_nil : Below bound [] := by
  simp [Below]

theorem below_cons {s : Segment} {ss : List Segment} :
    Below bound (s :: ss) ↔ s.size < bound ∧ Below bound ss :=
  List.forall_mem_cons

theorem below_append {ss ts : List Segment} :
    Below bound (ss ++ ts) ↔ Below bound ss ∧ Below bound ts :=
  List.forall_mem_append

theorem below_map {α : Type} [SizeOf α] {f : α → Segment} {as : List α}
    (h : ∀ a, sizeOf a < sizeOf as → (f a).size < bound) : Below bound (as.map f) := by
  intro s hs
  obtain ⟨a, ha, rfl⟩ := List.mem_map.1 hs
  exact h a (List.sizeOf_lt_of_mem ha)

theorem below_flatMap {α : Type} [SizeOf α] {f : α → List Segment} {as : List α}
    (h : ∀ a, sizeOf a < sizeOf as → Below bound (f a)) : Below bound (as.flatMap f) := by
  intro s hs
  obtain ⟨a, ha, hs⟩ := List.mem_flatMap.1 hs
  exact h a (List.sizeOf_lt_of_mem ha) s hs

theorem below_option {α : Type} [SizeOf α] {f : α → Segment} {a? : Option α}
    (h : ∀ a, sizeOf a < sizeOf a? → (f a).size < bound) : Below bound (a?.toList.map f) := by
  cases a? with
  | none => exact below_nil
  | some a => exact below_cons.2 ⟨h a (by simp), below_nil⟩

theorem below_subject (scope : Scope) (subject : Subject) (h : 2 * subject.size < bound) :
    Below bound (subject.segments scope) := by
  cases subject with
  | none => exact below_nil
  | column key => exact below_nil
  | expression core => exact below_cons.2 ⟨h, below_nil⟩

theorem below_exprChildren (scope : Scope) (e : Expr) :
    Below (2 * sizeOf e) (exprChildren scope e) := by
  cases e with
  | wrapper w =>
      obtain ⟨c, compare, alias?⟩ := w
      cases compare with
      | none =>
          cases c <;>
            refine below_cons.2 ⟨?_, below_nil⟩ <;>
            simp [size, Subject.size, Wrapper.mk.sizeOf_spec] <;>
            omega
      | some entries =>
          refine below_cons.2 ⟨?_, below_nil⟩
          simp only [size, Subject.size, Expr.wrapper.sizeOf_spec, Wrapper.mk.sizeOf_spec,
            Option.some.sizeOf_spec]
          omega
  | condition entries =>
      refine below_cons.2 ⟨?_, below_nil⟩
      simp only [size, Subject.size, Expr.condition.sizeOf_spec]
      omega
  | _ => exact below_nil

theorem below_stringSteps (scope : Scope) (steps : List StringStep) :
    Below (2 * sizeOf steps) (steps.flatMap (StringStep.segments scope)) := by
  have hpad : ∀ (pad? : Option Pad) {bound : Nat}, 2 * sizeOf pad? < bound →
      Below bound (pad?.toList.flatMap (Pad.segments scope)) := by
    rintro (_ | ⟨length, pattern⟩) bound h
    · exact below_nil
    · simp only [Option.some.sizeOf_spec, Pad.mk.sizeOf_spec] at h
      simp only [Option.toList_some, List.flatMap_singleton, Pad.segments]
      refine below_cons.2 ⟨?_, below_option fun a ha => ?_⟩ <;> simp only [size] <;> omega
  refine below_flatMap fun step hstep => ?_
  cases step with
  | substr start length =>
      simp only [StringStep.substr.sizeOf_spec] at hstep
      refine below_cons.2 ⟨?_, below_option fun a ha => ?_⟩ <;> simp only [size] <;> omega
  | padding left right =>
      simp only [StringStep.padding.sizeOf_spec] at hstep
      exact below_append.2 ⟨hpad left (by omega), hpad right (by omega)⟩
  | replace target replacement =>
      simp only [StringStep.replace.sizeOf_spec] at hstep
      refine below_cons.2 ⟨?_, below_cons.2 ⟨?_, below_nil⟩⟩ <;> simp only [size] <;> omega
  | _ => exact below_nil

theorem below_numberSteps (scope : Scope) (steps : List NumberStep) :
    Below (2 * sizeOf steps) (steps.flatMap (NumberStep.segments scope)) := by
  refine below_flatMap fun step hstep => ?_
  cases step with
  | power operand =>
      simp only [NumberStep.power.sizeOf_spec] at hstep
      exact below_cons.2 ⟨by simp only [size]; omega, below_nil⟩
  | arithmetic operation operand =>
      simp only [NumberStep.arithmetic.sizeOf_spec] at hstep
      exact below_cons.2 ⟨by simp only [size]; omega, below_nil⟩
  | rounding r => exact below_nil

theorem below_jsonBody (scope : Scope) (body : JsonBody) :
    Below (2 * sizeOf body) (body.segments scope) := by
  cases body with
  | object fields =>
      refine below_map fun (_, e) he => ?_
      simp only [size, JsonBody.object.sizeOf_spec, Prod.mk.sizeOf_spec] at he ⊢
      omega
  | array items =>
      refine below_map fun e he => ?_
      simp only [size, JsonBody.array.sizeOf_spec]
      omega
  | single value =>
      refine below_cons.2 ⟨?_, below_nil⟩
      simp only [size, JsonBody.single.sizeOf_spec]
      omega

theorem Below.mono {b c : Nat} {ss : List Segment} (h : Below b ss) (hbc : b ≤ c) : Below c ss :=
  fun s hs => Nat.lt_of_lt_of_le (h s hs) hbc

theorem below_entries (subject : Subject) (junction : Junction) (scope : Scope)
    (entries : List Entry) :
    Below (2 * (subject.size + sizeOf entries)) (entries.map (.entry subject junction scope)) := by
  refine below_map fun entry hentry => ?_
  simp only [size]
  omega

theorem below_coreChildren (scope : Scope) (c : Core) :
    Below (2 * sizeOf c) (coreChildren scope c) := by
  cases c with
  | string value prepare steps =>
      simp only [Core.string.sizeOf_spec]
      exact below_cons.2
        ⟨by simp only [size]; omega, (below_stringSteps scope steps).mono (by omega)⟩
  | number value prepare steps =>
      simp only [Core.number.sizeOf_spec]
      exact below_cons.2
        ⟨by simp only [size]; omega, (below_numberSteps scope steps).mono (by omega)⟩
  | date value prepare change =>
      simp only [Core.date.sizeOf_spec]
      exact below_cons.2 ⟨by simp only [size]; omega, below_nil⟩
  | concat values separator cast encryption steps =>
      simp only [Core.concat.sizeOf_spec]
      refine below_append.2 ⟨below_map fun e he => ?_, (below_stringSteps _ steps).mono (by omega)⟩
      simp only [size]
      omega
  | choice check yes no =>
      simp only [Core.choice.sizeOf_spec]
      refine below_append.2 ⟨(below_entries .none .and scope check).mono ?_, ?_⟩
      · simp only [Subject.size]
        omega
      · refine below_cons.2 ⟨?_, below_cons.2 ⟨?_, below_nil⟩⟩ <;> simp only [size] <;> omega
  | cases branches otherwise =>
      simp only [Core.cases.sizeOf_spec]
      refine below_append.2 ⟨below_flatMap ?_, below_option ?_⟩
      · rintro ⟨check, result⟩ hbranch
        simp only [Prod.mk.sizeOf_spec] at hbranch
        refine below_append.2 ⟨(below_entries .none .and scope check).mono ?_, ?_⟩
        · simp only [Subject.size]
          omega
        · exact below_cons.2 ⟨by simp only [size]; omega, below_nil⟩
      · intro e he
        simp only [size]
        omega
  | json options body source =>
      cases source with
      | none =>
          simp only [Core.json.sizeOf_spec]
          exact (below_jsonBody scope body).mono (by omega)
      | some q =>
          simp only [Core.json.sizeOf_spec, Option.some.sizeOf_spec]
          refine below_cons.2 ⟨?_, below_nil⟩
          simp only [size, Option.map_some, Option.getD_some]
          omega
  | refer q =>
      simp only [Core.refer.sizeOf_spec]
      refine below_cons.2 ⟨?_, below_nil⟩
      simp only [size, Option.map_none, Option.getD_none]
      omega
  | aggregate kind value distinct ifNull cast encryption =>
      simp only [Core.aggregate.sizeOf_spec]
      refine below_cons.2 ⟨by simp only [size]; omega, below_option fun e he => ?_⟩
      simp only [size]
      omega
  | all | any | between => exact below_nil

/-- The segments of a comparison, if those of its left side are small enough. -/
theorem below_ofOperand {left : List Segment} (hleft : Below bound left) (junction : Junction)
    (scope : Scope) (comparator : Comparator) {operand : Expr}
    (hoperand : 2 * sizeOf operand < bound) :
    Below bound ((Comparison.ofOperand junction scope comparator operand).segments left) := by
  have hplain : Below bound (left ++ [.expr .value scope operand]) :=
    below_append.2 ⟨hleft, below_cons.2 ⟨hoperand, below_nil⟩⟩
  have hitems : ∀ items, operand = .list items →
      Below bound (left ++ items.map (.expr .value scope)) := by
    rintro items rfl
    simp only [Expr.list.sizeOf_spec] at hoperand
    refine below_append.2 ⟨hleft, below_map fun e he => ?_⟩
    simp only [size]
    omega
  have hgroup : ∀ entries, operand = .condition entries →
      Below bound (left ++ [.group .none junction scope entries]) := by
    rintro entries rfl
    simp only [Expr.condition.sizeOf_spec] at hoperand
    refine below_append.2 ⟨hleft, below_cons.2 ⟨?_, below_nil⟩⟩
    simp only [size, Subject.size]
    omega
  have hquery : ∀ q compare alias?, operand = .wrapper ⟨.refer q, compare, alias?⟩ →
      Below bound [.query scope none q] := by
    rintro q compare alias? rfl
    simp only [Expr.wrapper.sizeOf_spec, Wrapper.mk.sizeOf_spec, Core.refer.sizeOf_spec] at hoperand
    refine below_cons.2 ⟨?_, below_nil⟩
    simp only [size, Option.map_none, Option.getD_none]
    omega
  unfold Comparison.ofOperand
  split
  · exact hquery _ _ _ rfl
  · exact hquery _ _ _ rfl
  · exact below_nil
  · exact below_nil
  · exact hitems _ rfl
  · exact hitems _ rfl
  · exact hitems _ rfl
  · exact hitems _ rfl
  · exact hplain
  · exact hplain
  · split
    · exact hleft
    · split
      · exact hleft
      · split
        · exact hgroup _ rfl
        · exact hplain

theorem below_ofColumn (scope : Scope) (key : String) {operand : Expr}
    (hoperand : 2 * sizeOf operand < bound) :
    Below bound ((Comparison.ofColumn scope key operand).segments []) := by
  unfold Comparison.ofColumn
  split
  · next items =>
      simp only [Expr.list.sizeOf_spec] at hoperand
      refine below_map fun e he => ?_
      simp only [size]
      omega
  · split
    · exact below_nil
    · exact below_nil
    · exact below_cons.2 ⟨hoperand, below_nil⟩

theorem below_entryChildren (subject : Subject) (junction : Junction) (scope : Scope)
    (entry : Entry) : Below (2 * (subject.size + sizeOf entry) + 1)
      (entryChildren subject junction scope entry) := by
  have hsubject : Below (2 * (subject.size + sizeOf entry) + 1) (subject.segments scope) :=
    below_subject scope subject (by omega)
  have hgroups : ∀ conditions : List (List Entry), sizeOf conditions ≤ sizeOf entry →
      Below (2 * (subject.size + sizeOf entry) + 1)
        (conditions.map (.group subject junction scope)) := by
    intro conditions hconditions
    refine below_map fun entries hentries => ?_
    simp only [size]
    omega
  cases entry with
  | wrapper w =>
      refine below_append.2 ⟨?_, below_cons.2 ⟨?_, below_nil⟩⟩
      · split
        · exact below_nil
        · exact hsubject
      · simp only [size, Expr.wrapper.sizeOf_spec, Entry.wrapper.sizeOf_spec]
        omega
  | all conditions => exact hgroups conditions (by simp)
  | any conditions => exact hgroups conditions (by simp)
  | between low high =>
      refine below_append.2 ⟨hsubject, ?_⟩
      simp only [Entry.between.sizeOf_spec]
      refine below_cons.2 ⟨?_, below_cons.2 ⟨?_, below_nil⟩⟩ <;> simp only [size] <;> omega
  | compare comparator operand =>
      refine below_ofOperand hsubject junction scope comparator ?_
      simp only [Entry.compare.sizeOf_spec]
      omega
  | column key operand =>
      have hoperand :
          2 * sizeOf operand < 2 * (subject.size + sizeOf (Entry.column key operand)) + 1 := by
        simp only [Entry.column.sizeOf_spec]
        omega
      cases operand with
      | condition entries =>
          refine below_cons.2 ⟨?_, below_nil⟩
          simp only [size, Subject.size, Entry.column.sizeOf_spec, Expr.condition.sizeOf_spec]
          omega
      | _ => exact below_ofColumn scope key hoperand

theorem below_pairChildren (outer inner : Scope) (column : String) (e : Expr) :
    Below (2 * sizeOf e + 1) (pairChildren outer inner column e) := by
  cases e with
  | null => exact below_nil
  | text token => exact below_nil
  | condition entries =>
      refine below_cons.2 ⟨?_, below_nil⟩
      simp only [size, Subject.size, Expr.condition.sizeOf_spec]
      omega
  | _ => exact below_cons.2 ⟨by simp only [size]; omega, below_nil⟩

theorem below_filter (junction : Junction) (scope : Scope) (filter : Option Condition) :
    Below (2 * sizeOf filter) (filterSegments junction scope filter) := by
  cases filter with
  | none => exact below_nil
  | some entries =>
      refine (below_entries .none junction scope entries).mono ?_
      simp only [Subject.size, Option.some.sizeOf_spec]
      omega

theorem below_join (parent : String) (scope : Scope) (join : Join) :
    Below (2 * sizeOf join) (joinSegments parent scope join) := by
  obtain ⟨kind, matching, q⟩ := join
  simp only [Join.mk.sizeOf_spec]
  refine below_append.2 ⟨?_, ?_⟩
  · split
    · refine below_cons.2 ⟨?_, below_nil⟩
      simp only [size, Option.map_none, Option.getD_none]
      omega
    · exact below_nil
  · cases matching with
    | unmatched => exact below_nil
    | shared columns => exact below_nil
    | pairs pairs =>
        refine below_map fun (column, e) he => ?_
        simp only [size, Matching.pairs.sizeOf_spec, Prod.mk.sizeOf_spec] at he ⊢
        omega

theorem below_keys (scope : Scope) (keys : List Expr) :
    Below (2 * sizeOf keys) (keys.flatMap (keySegments scope)) := by
  refine below_flatMap fun e he => ?_
  cases e with
  | text token => exact below_nil
  | _ => exact below_cons.2 ⟨by simp only [size]; omega, below_nil⟩

theorem below_queryChildren (outer : Scope) (build : Option (JsonOptions × JsonBody)) (q : Query) :
    Below (2 * (sizeOf q + (build.map fun (_, body) => sizeOf body).getD 0))
      (queryChildren outer build q) := by
  have hq : sizeOf q.select + sizeOf q.joins + sizeOf q.filter + sizeOf q.groupBy
      + sizeOf q.having < sizeOf q := by
    cases q
    simp only [Query.mk.sizeOf_spec]
    omega
  refine below_append.2 ⟨below_append.2 ⟨below_append.2 ⟨below_append.2 ⟨?_, ?_⟩, ?_⟩, ?_⟩, ?_⟩
  · cases build with
    | some built =>
        refine (below_jsonBody _ built.2).mono ?_
        simp only [Option.map_some, Option.getD_some]
        omega
    | none =>
        refine below_map fun e he => ?_
        simp only [size]
        omega
  · exact below_flatMap fun join hjoin => (below_join _ _ join).mono (by omega)
  · exact (below_filter _ _ q.filter).mono (by omega)
  · exact (below_keys _ q.groupBy).mono (by omega)
  · exact (below_filter _ _ q.having).mono (by omega)

theorem below_cell (scope : Scope) (e : Expr) :
    Below (2 * sizeOf e + 1) (cellSegments scope e) := by
  unfold cellSegments
  split
  iterate 3 exact below_nil
  exact below_cons.2 ⟨by simp only [size]; omega, below_nil⟩

theorem below_rowCells (scope : Scope) (row : Row) :
    Below (2 * sizeOf row) (rowCells scope row) := by
  refine below_flatMap fun (column, e) he => ?_
  simp only [Prod.mk.sizeOf_spec] at he
  exact (below_cell scope e).mono (by omega)

theorem below_tuple (scope : Scope) (first row : Row) :
    Below (2 * sizeOf row) (tupleSegments scope first row) := by
  intro s hs
  obtain ⟨⟨column, _⟩, -, hs⟩ := List.mem_flatMap.1 hs
  obtain ⟨e, he, hs⟩ := List.mem_flatMap.1 hs
  have hcell := List.sizeOf_lt_of_mem (mem_of_lookup (Option.mem_toList.1 he))
  simp only [Prod.mk.sizeOf_spec] at hcell
  have := below_cell scope e s hs
  omega

theorem below_writeChildren (outer : Scope) (w : Write) :
    Below (2 * sizeOf w) (writeChildren outer w) := by
  have hw : sizeOf w.rows + sizeOf w.filter + sizeOf w.upsert < sizeOf w := by
    cases w
    simp only [Write.mk.sizeOf_spec]
    omega
  unfold writeChildren
  split
  · refine below_append.2 ⟨below_flatMap fun row hrow => ?_, ?_⟩
    · exact (below_rowCells _ row).mono (by omega)
    · exact (below_filter _ _ w.filter).mono (by omega)
  · refine below_append.2 ⟨below_flatMap fun row hrow => ?_, ?_⟩
    · exact (below_tuple _ _ row).mono (by omega)
    · exact (below_rowCells _ w.upsert).mono (by omega)

/-- Every segment has more of the measure than its children. -/
theorem size_lt_of_mem_children {s child : Segment} (h : child ∈ s.children) :
    child.size < s.size := by
  have hbelow : Below s.size s.children := by
    cases s with
    | expr place scope e => exact below_exprChildren scope e
    | core scope c => exact below_coreChildren scope c
    | entry subject junction scope e => exact below_entryChildren subject junction scope e
    | group subject junction scope entries => exact below_entries subject junction scope entries
    | pair outer inner column e => exact below_pairChildren outer inner column e
    | query outer build q => exact below_queryChildren outer build q
    | write outer w => exact below_writeChildren outer w
    | delete safeMode outer d =>
        obtain ⟨table, alias?, filter, junction, encryption⟩ := d
        refine (below_filter _ _ filter).mono ?_
        simp only [size, Delete.mk.sizeOf_spec]
        omega
  exact hbelow child h

/-- What holds of a segment whose children it holds of, holds of all segments. -/
theorem induction {P : Segment → Prop} (step : ∀ s, (∀ child ∈ s.children, P child) → P s)
    (s : Segment) : P s :=
  step s fun child hchild =>
    have := size_lt_of_mem_children hchild
    induction step child
termination_by s.size

/-- All segments of a segment, in the order in which their texts end. -/
def all (s : Segment) : List Segment :=
  (s.children.attach.flatMap fun ⟨child, hchild⟩ =>
    have := size_lt_of_mem_children hchild
    child.all) ++ [s]
termination_by s.size

theorem all_eq (s : Segment) : s.all = s.children.flatMap all ++ [s] := by
  rw [all]
  simp

/-- All segments down to a depth. -/
def upTo : Nat → Segment → List Segment
  | 0, _ => []
  | depth + 1, s => s.children.flatMap (upTo depth) ++ [s]

/-- Whether there are no segments below a depth. -/
def isNested : Nat → Segment → Bool
  | 0, _ => false
  | depth + 1, s => s.children.all (isNested depth)

theorem all_eq_upTo (depth : Nat) {s : Segment} (h : s.isNested depth = true) :
    s.all = s.upTo depth := by
  induction depth generalizing s with
  | zero => cases h
  | succ depth ih =>
      have hchildren : s.children.flatMap all = s.children.flatMap (upTo depth) :=
        List.flatMap_congr fun child hchild => ih (List.all_eq_true.1 h child hchild)
      rw [s.all_eq, hchildren, upTo]

end Segment

/-! ## Whole statements -/

namespace Config

/-- The segment of a whole statement. -/
def segment (config : Config) (kind : StatementKind) (json : Json) :
    Except CompileError Segment :=
  match kind with
  | .select => (readSelectStatement json []).map fun (q, _) => .query config.scope none q
  | .write => (readWrite json []).map fun (w, _) => .write config.scope w
  | .delete => (readDelete json []).map fun (d, _) => .delete config.safeMode config.scope d

/-- What a statement writes is what its segment writes. -/
theorem fragment_eq_body (config : Config) (kind : StatementKind) (json : Json) :
    config.fragment kind json = (config.segment kind json).map Segment.body := by
  cases kind with
  | select =>
      simp only [fragment, segment]
      cases readSelectStatement json [] <;> rfl
  | write =>
      simp only [fragment, segment]
      cases readWrite json [] <;> rfl
  | delete =>
      simp only [fragment, segment]
      cases readDelete json [] <;> rfl

/-- The segment of a statement is a whole one. -/
theorem isWhole_of_segment {config : Config} {kind : StatementKind} {json : Json} {root : Segment}
    (h : config.segment kind json = .ok root) : root.isWhole = true := by
  have hmap : ∀ {α : Type} {read : Except CompileError α} {build : α → Segment},
      (∀ tree, (build tree).isWhole = true) → read.map build = .ok root → root.isWhole = true := by
    intro α read build hbuild hread
    cases read with
    | error e => cases hread
    | ok tree =>
        cases hread
        exact hbuild tree
  cases kind with
  | select => exact hmap (fun _ => rfl) h
  | write => exact hmap (fun _ => rfl) h
  | delete => exact hmap (fun _ => rfl) h

theorem exists_segment {config : Config} {kind : StatementKind} {json : Json} {f : Fragment}
    (h : config.fragment kind json = .ok f) :
    ∃ root, config.segment kind json = .ok root ∧ root.body = f := by
  rw [fragment_eq_body] at h
  cases hroot : config.segment kind json with
  | error e => rw [hroot] at h; cases h
  | ok root =>
      rw [hroot] at h
      cases h
      exact ⟨root, rfl, rfl⟩

end Config

end QueryTree
