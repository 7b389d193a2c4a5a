import QueryTree.Proofs.Cipher.Tie
import QueryTree.Proofs.Condition.Predicate
import QueryTree.Proofs.Statement.Independence

/-!
# How far the settings of a wrapper reach

A wrapper may give settings for the decryptions inside it. They take the place of those of the
wrappers around it, so a tree depends on the settings of wrappers around it only through the
decryptions that no wrapper in between has settings for. Through these it does depend on them: where
such a decryption gets a key that is written otherwise, the tree does not compile to the same.

* `Decryption`, `Scope.keyFor`: a decryption in a tree and its key where the tree stands.
* `Expr.reached`, `Entry.reached`, `Core.reached`, `Query.reached`: the decryptions of a tree that
  the settings of a wrapper around it reach.
* `Scope.calling`, `Scope.Ties`: scopes that differ in the settings of wrappers, and fragments that
  are the same exactly if such scopes give the decryptions keys that are written alike.
* `Expr.ties`, `Entry.ties`, `Wrapper.ties`, `Query.ties`: the fragments of a tree in such scopes
  are tied by the decryptions reached.
* `Core.withEncryption`, `Core.stepsReached`: the wrappers that take settings, and the decryptions
  in the steps of texts and numbers.
* `Wrapper.sql_override`: settings given by a wrapper against settings given around it.
-/

namespace QueryTree

open Fragment (word spaced commas words parens call)
open Cipher (Settings Key)

/-! ## Decryptions that are reached from outside -/

/-- A decryption in a tree. -/
structure Decryption where
  /-- Settings of the column. -/
  column : Settings
  /-- Settings of the innermost query of the tree around it that has any. -/
  query : Option Settings := none
deriving DecidableEq, Repr

/-- The decryption, seen from outside a query with settings. -/
def Decryption.under (settings : Option Settings) (d : Decryption) : Decryption :=
  { d with query := d.query <|> settings }

/-- The key for a decryption in a tree that stands in the scope. -/
def Scope.keyFor (scope : Scope) (d : Decryption) : Except CompileError Key :=
  (scope.withQuery d.query).resolve (some d.column)

/-- The decryptions reached in the value of a wrapper and at it; none if the wrapper has settings
of its own. -/
def Preparation.reached (prepare : Preparation) (inside : List Decryption) : List Decryption :=
  if prepare.encryption.isSome then [] else inside ++ prepare.decrypt.toList.map (⟨·, none⟩)

mutual

/-- The decryptions of an expression that settings around it reach. -/
def Expr.reached : Expr → List Decryption
  | .list items => exprsReached items
  | .wrapper w => w.reached
  | .condition entries => entriesReached [] entries
  | .null | .bool _ | .number _ | .text _ => []

/-- The decryptions reached in a query that is used as a value; nothing else is tested for rows. -/
def Expr.queryReached : Expr → List Decryption
  | .wrapper ⟨.refer query, _, _⟩ => query.reached none
  | _ => []

/-- The decryptions reached in expressions. -/
def exprsReached : List Expr → List Decryption
  | [] => []
  | e :: rest => e.reached ++ exprsReached rest

/-- The decryptions reached in an expression that may be absent. -/
def exprReached? : Option Expr → List Decryption
  | none => []
  | some e => e.reached

/-- The decryptions reached in entries, with those of what the entries are about. -/
def entriesReached (left : List Decryption) : List Entry → List Decryption
  | [] => []
  | entry :: rest => entry.reached left ++ entriesReached left rest

/-- The decryptions reached in conditions. -/
def groupsReached (left : List Decryption) : List (List Entry) → List Decryption
  | [] => []
  | entries :: rest => entriesReached left entries ++ groupsReached left rest

/-- The decryptions reached in a condition that may be absent. -/
def filterReached : Option (List Entry) → List Decryption
  | none => []
  | some entries => entriesReached [] entries

/-- The decryptions reached in an entry. What the entry is about is not written if it names a
column, tests a query for rows, or has comparisons of its own. -/
def Entry.reached (left : List Decryption) : Entry → List Decryption
  | .wrapper w => (if w.compare.isSome then [] else left) ++ w.reached
  | .all conditions | .any conditions => groupsReached left conditions
  | .between low high => left ++ (low.reached ++ high.reached)
  | .compare comparator operand =>
    if comparator.testsRows then operand.queryReached else left ++ operand.reached
  | .column _ operand => operand.reached

/-- The decryptions reached in a wrapper. -/
def Wrapper.reached : Wrapper → List Decryption
  | ⟨core, none, _⟩ => core.reached
  | ⟨core, some entries, _⟩ => entriesReached core.reached entries

/-- The decryptions reached in a wrapper before it is compared. The steps of a text or a number are
reached even if the wrapper has settings of its own. -/
def Core.reached : Core → List Decryption
  | .string value prepare steps => prepare.reached value.reached ++ stringStepsReached steps
  | .number value prepare steps => prepare.reached value.reached ++ numberStepsReached steps
  | .date value prepare _ => prepare.reached value.reached
  | .concat values _ _ encryption steps =>
    if encryption.isSome then [] else exprsReached values ++ stringStepsReached steps
  | .choice check yes no => entriesReached [] check ++ (yes.reached ++ no.reached)
  | .cases branches otherwise => branchesReached branches ++ exprReached? otherwise
  | .json _ body none => body.reached
  | .json _ body (some query) => query.reached (some body.reached)
  | .refer query => query.reached none
  | .aggregate _ value _ ifNull _ encryption =>
    if encryption.isSome then [] else value.reached ++ exprReached? ifNull
  | .all conditions | .any conditions => groupsReached [] conditions
  | .between low high => low.reached ++ high.reached

/-- The decryptions reached in steps that change a text. -/
def stringStepsReached : List StringStep → List Decryption
  | [] => []
  | step :: rest => step.reached ++ stringStepsReached rest

/-- The decryptions reached in a step that changes a text. -/
def StringStep.reached : StringStep → List Decryption
  | .substr start length => start.reached ++ exprReached? length
  | .padding left right => padReached left ++ padReached right
  | .replace target replacement => target.reached ++ replacement.reached
  | .trim _ | .textCase _ | .reverse | .encoding _ => []

/-- The decryptions reached in padding. -/
def padReached : Option Pad → List Decryption
  | none => []
  | some ⟨length, pattern⟩ => length.reached ++ exprReached? pattern

/-- The decryptions reached in steps that change a number. -/
def numberStepsReached : List NumberStep → List Decryption
  | [] => []
  | step :: rest => step.reached ++ numberStepsReached rest

/-- The decryptions reached in a step that changes a number. -/
def NumberStep.reached : NumberStep → List Decryption
  | .power e | .arithmetic _ e => e.reached
  | .rounding _ => []

/-- The decryptions reached in branches. -/
def branchesReached : List (List Entry × Expr) → List Decryption
  | [] => []
  | (check, result) :: rest => entriesReached [] check ++ result.reached ++ branchesReached rest

/-- The decryptions reached in a JSON value to build. -/
def JsonBody.reached : JsonBody → List Decryption
  | .object fields => pairsReached fields
  | .array items => exprsReached items
  | .single value => value.reached

/-- The decryptions reached in expressions with keys or columns. -/
def pairsReached : List (String × Expr) → List Decryption
  | [] => []
  | (_, e) :: rest => e.reached ++ pairsReached rest

/-- The decryptions reached in a query, with those of what is built in place of its items. -/
def Query.reached (built : Option (List Decryption)) : Query → List Decryption
  | ⟨_, _, select, joins, filter, _, groupBy, having, _, _, _, encryption⟩ =>
    (built.getD (exprsReached select) ++ joinsReached joins ++ filterReached filter
      ++ exprsReached groupBy ++ filterReached having).map (Decryption.under encryption)

/-- The decryptions reached in joins. -/
def joinsReached : List Join → List Decryption
  | [] => []
  | join :: rest => join.reached ++ joinsReached rest

/-- The decryptions reached in a join; a table that is joined holds none. -/
def Join.reached : Join → List Decryption
  | ⟨_, matching, query⟩ =>
    (if query.isDerived then query.reached none else []) ++ matching.reached

/-- The decryptions reached in the matching of a join. -/
def Matching.reached : Matching → List Decryption
  | .pairs pairs => pairsReached pairs
  | .unmatched | .shared _ => []

end

/-! ## Scopes that differ in the settings of wrappers -/

namespace Scope

/-- The scope with other settings of wrappers. -/
def calling (scope : Scope) (call : Option Settings) : Scope :=
  { scope with layers := { scope.layers with call } }

/-- The keys for a decryption are written alike under other settings of wrappers. -/
def Alike (scope : Scope) (call : Option Settings) (d : Decryption) : Prop :=
  Cipher.Alike scope.dialect ((scope.calling call).keyFor d) (scope.keyFor d)

/-- What is written under other settings of wrappers, and under those of the scope, is tied by the
keys for decryptions. -/
abbrev Ties (scope : Scope) (call : Option Settings) :
    List Decryption → Fragment → Fragment → Prop :=
  Fragment.Tied scope.dialect (scope.Alike call)

/-- The same for fragments, one after the other. -/
abbrev TiesAll (scope : Scope) (call : Option Settings) :
    List Decryption → List Fragment → List Fragment → Prop :=
  TiedAll scope.dialect (scope.Alike call)

/-- What is written in a scope depends on the settings of wrappers only through decryptions. -/
def Governed (call : Option Settings) (g : Scope → Fragment) (ds : List Decryption) : Prop :=
  ∀ scope : Scope, scope.Ties call ds (g (scope.calling call)) (g scope)

variable {scope : Scope} {call : Option Settings}

theorem calling_enter (scope : Scope) (call : Option Settings) (table : String)
    (alias? : Option String) (joins : List Join) (settings : Option Settings) :
    (scope.calling call).enter table alias? joins settings
      = (scope.enter table alias? joins settings).calling call := by
  cases settings <;> rfl

/-- The key for a decryption depends on the layers of the scope only. -/
theorem keyFor_of_layers {scope' : Scope} (h : scope'.layers = scope.layers) (d : Decryption) :
    scope'.keyFor d = scope.keyFor d := by
  unfold keyFor
  cases d.query <;> simp [withQuery, resolve, h]

/-- Scopes with the same layers have the same keys. -/
theorem alike_of_layers {scope' : Scope} (h : scope'.layers = scope.layers)
    (hd : scope'.dialect = scope.dialect) : scope'.Alike call = scope.Alike call := by
  funext d
  have hcalling : (scope'.calling call).layers = (scope.calling call).layers := by
    simp [calling, h]
  rw [Alike, Alike, keyFor_of_layers hcalling, keyFor_of_layers h, hd]

/-- A query gives a decryption the key that it has as seen from outside. -/
theorem keyFor_enter (scope : Scope) (table : String) (alias? : Option String)
    (joins : List Join) (settings : Option Settings) (d : Decryption) :
    (scope.enter table alias? joins settings).keyFor d = scope.keyFor (d.under settings) := by
  obtain ⟨column, query⟩ := d
  cases query <;> cases settings <;> rfl

/-- What is written in a query, seen from outside. -/
theorem Ties.enter {ds : List Decryption} {f g : Fragment} (table : String)
    (alias? : Option String) (joins : List Join) {settings : Option Settings}
    (h : (scope.enter table alias? joins settings).Ties call ds f g) :
    scope.Ties call (ds.map (Decryption.under settings)) f g := by
  rw [Ties, dialect_enter] at h
  refine h.map fun d => ?_
  rw [Alike, Alike, ← calling_enter, keyFor_enter, keyFor_enter, dialect_enter]

end Scope

/-! ## Trees in such scopes -/

section Trees

variable {scope : Scope} {call : Option Settings}

/-- The decryption at a wrapper comes after those in its value. -/
theorem Preparation.ties_apply (prepare : Preparation) {ds : List Decryption} {f g : Fragment}
    (h : scope.Ties call ds f g) :
    scope.Ties call (ds ++ prepare.decrypt.toList.map (⟨·, none⟩))
      (prepare.apply (scope.calling call) f) (prepare.apply scope g) := by
  refine Fragment.Tied.castOptional _ _ ?_
  cases prepare.decrypt with
  | none => simpa using h
  | some column =>
      have hcomplete : ∀ (scope : Scope) (key : Key), scope.resolve (some column) = .ok key →
          key.Complete := fun _ _ => Cipher.Settings.complete_ok
      simp only [Option.elim_some, Scope.cipher_eq]
      exact h.cipher (d := ⟨column, none⟩) (hcomplete _) (hcomplete _) Iff.rfl .decrypt

/-- The value of a wrapper is tied by what is reached in it, unless the wrapper has settings of its
own. -/
theorem Preparation.ties_prepared (prepare : Preparation) {value : Expr}
    (h : scope.Ties call value.reached (value.fragment .column (scope.calling call))
      (value.fragment .column scope)) :
    scope.Ties call (prepare.reached value.reached)
      (prepare.apply ((scope.calling call).withCall prepare.encryption)
        (value.fragment .column ((scope.calling call).withCall prepare.encryption)))
      (prepare.apply (scope.withCall prepare.encryption)
        (value.fragment .column (scope.withCall prepare.encryption))) := by
  unfold Preparation.reached
  cases prepare.encryption with
  | some settings => exact .same _
  | none => exact prepare.ties_apply h

/-- Operands that a comparison takes apart, with their parts tied. -/
def Expr.PartsTied (scope : Scope) (call : Option Settings) (junction : Junction) : Expr → Prop
  | .list items =>
      scope.TiesAll call (exprsReached items) (exprFragments .value (scope.calling call) items)
        (exprFragments .value scope items)
  | .condition entries =>
      ∀ {left parent parent'},
        Fragment.TiedOption scope.dialect (scope.Alike call) left parent parent' →
        scope.TiesAll call (entriesReached left entries)
          (entryFragments parent junction (scope.calling call) entries)
          (entryFragments parent' junction scope entries)
  | .wrapper w =>
      ∀ query, w.core = .refer query →
        scope.Ties call (query.reached none) (query.fragment (scope.calling call) none)
          (query.fragment scope none)
  | _ => True

theorem ties_aggregated (kind : AggregateKind) (distinct : Bool) {ds : List Decryption}
    {f g : Fragment} (h : scope.Ties call ds f g) :
    scope.Ties call ds
      (Fragment.call kind.function [if distinct then spaced ["DISTINCT", f] else f])
      (Fragment.call kind.function [if distinct then spaced ["DISTINCT", g] else g]) := by
  have hargument : scope.Ties call ds (if distinct then spaced ["DISTINCT", f] else f)
      (if distinct then spaced ["DISTINCT", g] else g) :=
    .ite (TiedAll.skip _ (.last h)).spaced h
  exact hargument.call _ []

/-- What a query selects: its items, or what is built in their place. -/
theorem ties_built {build : Option (Scope → Fragment)} {built : Option (List Decryption)}
    (hb : Option.Rel (Scope.Governed call) build built) {select : List Expr}
    (hitems : scope.TiesAll call (exprsReached select)
      (itemFragments (scope.calling call) select) (itemFragments scope select)) :
    scope.Ties call (built.getD (exprsReached select))
      (build.elim (if select.isEmpty then word "*"
        else commas (itemFragments (scope.calling call) select)) fun g => g (scope.calling call))
      (build.elim (if select.isEmpty then word "*" else commas (itemFragments scope select))
        fun g => g scope) := by
  cases hb with
  | some hg => exact hg scope
  | none =>
      cases select with
      | nil => exact .same _
      | cons e select => exact hitems.commas

theorem Entry.reached_compare {comparator : Comparator} (h : comparator.testsRows = false)
    (left : List Decryption) (operand : Expr) :
    (Entry.compare comparator operand).reached left = left ++ operand.reached := by
  rw [Entry.reached, h]
  rfl

theorem reached_of_isNull {operand : Expr} (h : operand.isNull = true) : operand.reached = [] := by
  cases operand <;> first | rfl | cases h

/-- **A predicate is tied by what ties its left side and its operand**; a test for rows has no left
side. -/
theorem ties_predicate (field : String) {left : List Decryption} {l l' : Fragment}
    (hleft : scope.Ties call left l l') (junction : Junction) {comparator : Comparator}
    {operand : Expr} {predicate : Predicate} (hchooses : comparator.Chooses operand predicate)
    (hnull : predicate = .isNull ∨ predicate = .isNotNull → operand.reached = [])
    (hoperand : scope.Ties call operand.reached (operand.fragment .value (scope.calling call))
      (operand.fragment .value scope))
    (hparts : operand.PartsTied scope call junction) :
    scope.Ties call ((Entry.compare comparator operand).reached left)
      (predicate.fragment field comparator l junction (scope.calling call))
      (predicate.fragment field comparator l' junction scope) := by
  cases hchooses with
  | rows query compare alias? h =>
      rw [Entry.reached, if_pos h]
      exact (TiedAll.skip _ (.last (hparts query rfl).parens)).spaced
  | noQuery => exact .fail _ _
  | isNull _ h =>
      rw [Entry.reached_compare h, hnull (.inl rfl), List.append_nil]
      exact hleft.isNullTest
  | isNotNull _ h =>
      rw [Entry.reached_compare h, hnull (.inr rfl), List.append_nil]
      exact hleft.isNotNullTest
  | items items listed h =>
      rw [Entry.reached_compare h]
      exact hleft.inList field listed hparts
  | single _ listed h =>
      rw [Entry.reached_compare h]
      exact hleft.inList field listed (.last hoperand)
  | nested entries h =>
      rw [Entry.reached_compare h]
      exact (TiedAll.cons hleft (.skip _ (.last ((hparts .none).group junction)))).spaced
  | plain _ h =>
      rw [Entry.reached_compare h]
      exact hleft.compareWith _ comparator hoperand

theorem ties_compareEntry {left : List Decryption} {parent parent' : Option Fragment}
    (hp : Fragment.TiedOption scope.dialect (scope.Alike call) left parent parent')
    (junction : Junction) (comparator : Comparator) {operand : Expr}
    (hoperand : scope.Ties call operand.reached (operand.fragment .value (scope.calling call))
      (operand.fragment .value scope))
    (hparts : operand.PartsTied scope call junction) :
    scope.Ties call ((Entry.compare comparator operand).reached left)
      ((Entry.compare comparator operand).fragment parent junction (scope.calling call))
      ((Entry.compare comparator operand).fragment parent' junction scope) := by
  rw [Entry.fragment_compare_eq, Entry.fragment_compare_eq]
  exact ties_predicate _ (hp.leftOperand _) junction (comparator.chooses_predicate operand)
    (fun hnull => reached_of_isNull (Comparator.isNull_of_predicate hnull)) hoperand hparts

/-- A column that is compared has only its operand to decrypt. -/
theorem ties_columnEntry (left : List Decryption) (parent parent' : Option Fragment)
    (junction : Junction) (key : String) {operand : Expr}
    (hoperand : scope.Ties call operand.reached (operand.fragment .value (scope.calling call))
      (operand.fragment .value scope))
    (hparts : operand.PartsTied scope call junction) :
    scope.Ties call ((Entry.column key operand).reached left)
      ((Entry.column key operand).fragment parent junction (scope.calling call))
      ((Entry.column key operand).fragment parent' junction scope) := by
  cases operand with
  | condition entries =>
      exact (hparts (.some (.same (Token.column scope key)))).group junction
  | _ =>
      rw [Entry.fragment_column_eq, Entry.fragment_column_eq]
      · refine ties_predicate key (.same (Token.column scope key)) junction
          (Expr.chooses_predicate _) ?_ hoperand hparts
        first
          | exact fun _ => rfl
          | (rintro (h | h) <;> cases h)
      all_goals rintro _ ⟨⟩

mutual

/-- **Every expression is tied by the decryptions reached in it.** -/
theorem Expr.ties {scope : Scope} (place : Place) :
    ∀ e : Expr, scope.Ties call e.reached (e.fragment place (scope.calling call))
      (e.fragment place scope)
  | .null | .bool _ | .number _ => .same _
  | .list _ => .fail _ _
  | .text _ => by cases place <;> exact .same _
  | .wrapper w => w.ties
  | .condition entries => by
      rw [Expr.fragment, Expr.fragment]
      exact (ties_entries .none .and entries).group .and

theorem ties_exprs {scope : Scope} (place : Place) :
    ∀ es : List Expr, scope.TiesAll call (exprsReached es)
      (exprFragments place (scope.calling call) es) (exprFragments place scope es)
  | [] => .nil
  | e :: rest => .cons (e.ties place) (ties_exprs place rest)

theorem ties_entries {scope : Scope} {left : List Decryption} {parent parent' : Option Fragment}
    (hp : Fragment.TiedOption scope.dialect (scope.Alike call) left parent parent')
    (junction : Junction) :
    ∀ entries : List Entry, scope.TiesAll call (entriesReached left entries)
      (entryFragments parent junction (scope.calling call) entries)
      (entryFragments parent' junction scope entries)
  | [] => .nil
  | entry :: rest => .cons (entry.ties hp junction) (ties_entries hp junction rest)

theorem ties_groups {scope : Scope} {left : List Decryption} {parent parent' : Option Fragment}
    (hp : Fragment.TiedOption scope.dialect (scope.Alike call) left parent parent')
    (junction : Junction) :
    ∀ conditions : List (List Entry), scope.TiesAll call (groupsReached left conditions)
      (groupFragments parent junction (scope.calling call) conditions)
      (groupFragments parent' junction scope conditions)
  | [] => .nil
  | entries :: rest =>
      .cons ((ties_entries hp junction entries).group junction) (ties_groups hp junction rest)

theorem ties_filter {scope : Scope} (junction : Junction) :
    ∀ filter : Option (List Entry), scope.TiesAll call (filterReached filter)
      (filterFragments junction (scope.calling call) filter)
      (filterFragments junction scope filter)
  | none => .nil
  | some entries => ties_entries .none junction entries

/-- **Every entry is tied by the decryptions reached in it**, those of what it is about included. -/
theorem Entry.ties {scope : Scope} {left : List Decryption} {parent parent' : Option Fragment}
    (hp : Fragment.TiedOption scope.dialect (scope.Alike call) left parent parent')
    (junction : Junction) :
    ∀ entry : Entry, scope.Ties call (entry.reached left)
      (entry.fragment parent junction (scope.calling call))
      (entry.fragment parent' junction scope)
  | .wrapper w => by
      rw [Entry.fragment, Entry.fragment]
      exact hp.wrapperEntry _ w.ties
  | .all conditions | .any conditions => by
      rw [Entry.fragment, Entry.fragment]
      exact (ties_groups hp junction conditions).nest _
  | .between low high => by
      rw [Entry.fragment, Entry.fragment]
      exact hp.betweenFragment (low.ties .value) (high.ties .value)
  | .compare comparator operand =>
      ties_compareEntry hp junction comparator (operand.ties .value) (operand.partsTied junction)
  | .column key operand =>
      ties_columnEntry left parent parent' junction key (operand.ties .value)
        (operand.partsTied junction)

theorem Expr.partsTied {scope : Scope} (junction : Junction) :
    ∀ e : Expr, e.PartsTied scope call junction
  | .list items => ties_exprs .value items
  | .condition entries => fun hp => ties_entries hp junction entries
  | .wrapper ⟨.refer query, _, _⟩ => by
      have hquery : scope.Ties call (query.reached none) (query.fragment (scope.calling call) none)
          (query.fragment scope none) := query.ties .none
      rintro _ ⟨⟩
      exact hquery
  | .wrapper ⟨.string .., _, _⟩ | .wrapper ⟨.number .., _, _⟩ | .wrapper ⟨.date .., _, _⟩
  | .wrapper ⟨.concat .., _, _⟩ | .wrapper ⟨.choice .., _, _⟩ | .wrapper ⟨.cases .., _, _⟩
  | .wrapper ⟨.json .., _, _⟩ | .wrapper ⟨.aggregate .., _, _⟩ | .wrapper ⟨.all .., _, _⟩
  | .wrapper ⟨.any .., _, _⟩ | .wrapper ⟨.between .., _, _⟩ => nofun
  | .null | .bool _ | .number _ | .text _ => trivial

/-- **Every wrapper is tied by the decryptions reached in it**, once for each comparison. -/
theorem Wrapper.ties {scope : Scope} :
    ∀ w : Wrapper, scope.Ties call w.reached (w.fragment (scope.calling call)) (w.fragment scope)
  | ⟨core, none, _⟩ => by
      have hcore : scope.Ties call core.reached _ _ := core.ties
      cases core with
      | all conditions | any conditions => exact (ties_groups .none .and conditions).nest _
      | between low high =>
          exact Fragment.TiedOption.none.betweenFragment (low.ties .value) (high.ties .value)
      | _ => exact hcore
  | ⟨core, some entries, _⟩ => (ties_entries (.some core.ties) .and entries).group .and

/-- **Every core is tied by the decryptions reached in it**; under settings of its own, only by
those in the steps of a text or a number. -/
theorem Core.ties {scope : Scope} :
    ∀ core : Core, scope.Ties call core.reached (core.fragment (scope.calling call))
      (core.fragment scope)
  | .string value prepare steps =>
      ties_stringSteps steps (prepare.ties_prepared (value.ties .column))
  | .number value prepare steps =>
      ties_numberSteps steps (prepare.ties_prepared (value.ties .column))
  | .date value prepare change => (prepare.ties_prepared (value.ties .column)).dateChange _ change
  | .concat values separator cast (some _) steps => .same _
  | .concat values separator cast none steps =>
      ties_stringSteps steps
        (((ties_exprs .column values).concatFragment separator).castOptional _ cast)
  | .choice check yes no => by
      have hcheck : scope.Ties call (entriesReached [] check) _ _ :=
        (ties_entries .none .and check).operated Junction.and.keyword
      exact .ite ((TiedAll.cons hcheck
        (.cons (yes.ties .value) (.last (no.ties .value)))).call "IF") (.fail _ _)
  | .cases branches none => by
      have hbranches : scope.Ties call _ _ _ := (ties_branches branches).append (.same .empty)
      exact hbranches.enclosed .cases
  | .cases branches (some e) =>
      ((ties_branches branches).append ((e.ties .value).clause ["ELSE"])).enclosed .cases
  | .json options body none => (body.ties options).jsonOptions _ options
  | .json options body (some query) => by
      have hbody : Scope.Governed call (fun inner => body.fragment options inner) body.reached :=
        fun _ => body.ties options
      exact (query.ties (.some hbody)).parens.jsonOptions _ options
  | .refer query => (query.ties .none).parens
  | .aggregate kind value distinct ifNull cast (some _) => .same _
  | .aggregate kind value distinct none cast none => by
      have hvalue : scope.Ties call _ _ _ :=
        ties_aggregated kind distinct (value.ties .column)
      rw [Core.reached, Option.isSome_none, if_neg Bool.false_ne_true, exprReached?,
        List.append_nil]
      exact hvalue.castOptional _ cast
  | .aggregate kind value distinct (some e) cast none => by
      have hvalue : scope.Ties call _ _ _ :=
        ties_aggregated kind distinct (value.ties .column)
      exact ((TiedAll.cons hvalue (.last (e.ties .value))).call _).castOptional _ cast
  | .all _ | .any _ | .between _ _ => .fail _ _

/-- Each step adds the decryptions in it to those of what it is applied to. -/
theorem ties_stringSteps {scope : Scope} :
    ∀ (steps : List StringStep) {ds : List Decryption} {f g : Fragment}, scope.Ties call ds f g →
      scope.Ties call (ds ++ stringStepsReached steps)
        (stringFragment (scope.calling call) f steps) (stringFragment scope g steps)
  | [], _, _, _, h => by simpa [stringStepsReached, stringFragment] using h
  | .trim _ :: rest, _, _, _, h | .textCase _ :: rest, _, _, _, h =>
      ties_stringSteps rest (h.call _ [])
  | .substr start none :: rest, ds, _, _, h => by
      have hpart : scope.Ties call _ _ _ :=
        (TiedAll.cons h (.last (start.ties .column))).call scope.dialect.substrFunction
      exact (ties_stringSteps rest hpart).congr
        (by simp [stringStepsReached, StringStep.reached, exprReached?])
  | .substr start (some length) :: rest, _, _, _, h => by
      have hpart : scope.Ties call _ _ _ :=
        (TiedAll.cons h (.cons (start.ties .column) (.last (length.ties .column)))).call
          scope.dialect.substrFunction
      exact (ties_stringSteps rest hpart).congr
        (by simp [stringStepsReached, StringStep.reached, exprReached?])
  | .padding left right :: rest, ds, _, _, h => by
      have hpadded : scope.Ties call (ds ++ (StringStep.padding left right).reached) _ _ :=
        (ties_pad "RPAD" right (ties_pad "LPAD" left h)).congr (by simp [StringStep.reached])
      have hrest : scope.Ties call (ds ++ stringStepsReached (.padding left right :: rest)) _ _ :=
        (ties_stringSteps rest hpadded).congr (by simp [stringStepsReached])
      exact .ite (h.halted _ _) hrest
  | .reverse :: rest, _, _, _, h =>
      .ite (h.halted _ _) (ties_stringSteps rest (h.call "REVERSE" []))
  | .replace target replacement :: rest, _, _, _, h => by
      have hpart : scope.Ties call _ _ _ :=
        (TiedAll.cons h (.cons (target.ties .value) (.last (replacement.ties .value)))).call
          "REPLACE"
      exact (ties_stringSteps rest hpart).congr
        (by simp [stringStepsReached, StringStep.reached])
  | .encoding charset :: rest, _, _, _, h =>
      .ite (ties_stringSteps rest ((TiedAll.lead h _).spaced.parens.after (word "CONVERT")))
        (h.halted _ _)

theorem ties_pad {scope : Scope} (function : String) :
    ∀ (pad : Option Pad) {ds : List Decryption} {f g : Fragment}, scope.Ties call ds f g →
      scope.Ties call (ds ++ padReached pad) (padFragment (scope.calling call) function f pad)
        (padFragment scope function g pad)
  | none, _, _, _, h => by simpa [padReached, padFragment] using h
  | some ⟨length, none⟩, _, _, _, h => by
      have hparts := TiedAll.cons h (.cons (length.ties .column) (.same [.text " "]))
      simpa [padReached, padFragment, exprReached?] using hparts.call function
  | some ⟨length, some pattern⟩, _, _, _, h =>
      (TiedAll.cons h (.cons (length.ties .column) (.last (pattern.ties .value)))).call function

theorem ties_numberSteps {scope : Scope} :
    ∀ (steps : List NumberStep) {ds : List Decryption} {f g : Fragment}, scope.Ties call ds f g →
      scope.Ties call (ds ++ numberStepsReached steps)
        (numberFragment (scope.calling call) f steps) (numberFragment scope g steps)
  | [], _, _, _, h => by simpa [numberStepsReached, numberFragment] using h
  | .power e :: rest, _, _, _, h => by
      have hpart : scope.Ties call _ _ _ :=
        (TiedAll.cons h (.last (e.ties .column))).call "POWER"
      exact (ties_numberSteps rest hpart).congr
        (by simp [numberStepsReached, NumberStep.reached])
  | .arithmetic operation e :: rest, _, _, _, h => by
      have hpart : scope.Ties call _ _ _ :=
        ((TiedAll.cons h (.last (e.ties .column))).operated operation.operator).parens
      exact (ties_numberSteps rest hpart).congr
        (by simp [numberStepsReached, NumberStep.reached])
  | .rounding r :: rest, _, _, _, h => ties_numberSteps rest (h.rounding _ r)

theorem ties_branches {scope : Scope} :
    ∀ branches : List (List Entry × Expr), scope.Ties call (branchesReached branches)
      (branchFragment (scope.calling call) branches) (branchFragment scope branches)
  | [] => .same _
  | (check, result) :: rest =>
      ((((ties_entries .none .and check).operated _).clause ["WHEN"]).append
        ((result.ties .value).clause ["THEN"])).append (ties_branches rest)

theorem JsonBody.ties {scope : Scope} (options : JsonOptions) :
    ∀ body : JsonBody, scope.Ties call body.reached (body.fragment options (scope.calling call))
      (body.fragment options scope)
  | .object fields => ((ties_fields fields).call _).collect _ options
  | .array items => ((ties_exprs .column items).call _).collect _ options
  | .single value => by
      have hvalue : scope.Ties call value.reached _ _ := value.ties .column
      exact .collect _ options (.ite hvalue (hvalue.call _ []))

theorem ties_fields {scope : Scope} :
    ∀ fields : List (String × Expr), scope.TiesAll call (pairsReached fields)
      (fieldFragments (scope.calling call) fields) (fieldFragments scope fields)
  | [] => .nil
  | (_, value) :: rest => .skip _ (.cons (value.ties .column) (ties_fields rest))

/-- **Every query is tied by the decryptions reached in it**, with the settings of the query known.
-/
theorem Query.ties {outer : Scope} {build : Option (Scope → Fragment)}
    {built : Option (List Decryption)} (hb : Option.Rel (Scope.Governed call) build built) :
    ∀ query : Query, outer.Ties call (query.reached built)
      (query.fragment (outer.calling call) build) (query.fragment outer build)
  | ⟨table, alias?, select, joins, filter, junction, groupBy, having, orderBy, limit, offset,
      encryption⟩ => by
      rw [Query.fragment_eq, Query.fragment_eq]
      simp only [Query.scope, Scope.calling_enter]
      refine Scope.Ties.enter table alias? joins ?_
      let inner := outer.enter table alias? joins encryption
      have hitems : inner.Ties call (built.getD (exprsReached select)) _ _ :=
        ties_built hb (ties_items select)
      have hwhere : inner.Ties call (filterReached filter) _ _ :=
        (ties_filter junction filter).conditionClause "WHERE" junction
      have hhaving : inner.Ties call (filterReached having) _ _ :=
        (ties_filter junction having).conditionClause "HAVING" junction
      -- the order and the limit of the rows hold no decryptions
      exact ((((((TiedAll.skip _ (.lead hitems _)).spaced.append (ties_joins _ joins)).append
        hwhere).append ((ties_keys _ groupBy).listClause ["GROUP", "BY"])).append
        hhaving).before _).before _

theorem ties_items {scope : Scope} :
    ∀ items : List Expr, scope.TiesAll call (exprsReached items)
      (itemFragments (scope.calling call) items) (itemFragments scope items)
  | [] => .nil
  | e :: rest => by
      have he : scope.Ties call e.reached _ _ := e.ties .column
      have hrest : scope.TiesAll call (exprsReached rest) _ _ := ties_items rest
      cases e with
      | wrapper w => exact .cons (he.aliased w.alias?) hrest
      | _ => exact .cons he hrest

theorem ties_keys {scope : Scope} (outputs : List String) :
    ∀ keys : List Expr, scope.TiesAll call (exprsReached keys)
      (keyFragments (scope.calling call) outputs keys) (keyFragments scope outputs keys)
  | [] => .nil
  | e :: rest => by
      have he : scope.Ties call e.reached _ _ := e.ties .column
      have hrest : scope.TiesAll call (exprsReached rest) _ _ := ties_keys outputs rest
      cases e with
      | text token => exact .skip (sortKey scope outputs token) hrest
      | _ => exact .cons he hrest

theorem ties_joins {scope : Scope} (parent : String) :
    ∀ joins : List Join, scope.Ties call (joinsReached joins)
      (joinsFragment parent (scope.calling call) joins) (joinsFragment parent scope joins)
  | [] => .same _
  | join :: rest => ((join.ties parent).after _).append (ties_joins parent rest)

/-- **Every join is tied by the decryptions reached in it.** Its scopes differ from the one around
it in names only. -/
theorem Join.ties {scope : Scope} (parent : String) :
    ∀ join : Join, scope.Ties call join.reached (join.fragment parent (scope.calling call))
      (join.fragment parent scope)
  | ⟨kind, matching, query⟩ => by
      have hquery : scope.Ties call (query.reached none) _ _ := query.ties .none
      let outer := scope.target parent (some parent) none
      let inner := outer.target query.table (some query.qualifier) none
      have hmatching : inner.Ties call matching.reached _ _ := matching.ties outer
      have halike : inner.Alike call = scope.Alike call := Scope.alike_of_layers rfl rfl
      rw [Scope.Ties, halike] at hmatching
      refine (TiedAll.skip _ (.last ?_)).spaced.append hmatching
      cases query.isDerived with
      | false => exact .same _
      | true =>
          cases query.alias? with
          | none => exact .fail _ _
          | some name => exact (TiedAll.lead hquery.parens _).spaced

theorem Matching.ties (outer : Scope) {inner : Scope} :
    ∀ matching : Matching, inner.Ties call matching.reached
      (matching.fragment (outer.calling call) (inner.calling call)) (matching.fragment outer inner)
  | .unmatched | .shared _ => .same _
  | .pairs pairs => ((ties_pairs outer pairs).operated _).clause ["ON"]

/-- The outer scope of a join is for columns only. -/
theorem ties_pairs (outer : Scope) {inner : Scope} :
    ∀ pairs : List (String × Expr), inner.TiesAll call (pairsReached pairs)
      (pairFragments (outer.calling call) (inner.calling call) pairs)
      (pairFragments outer inner pairs)
  | [] => .nil
  | (column, e) :: rest => by
      have hright : inner.Ties call e.reached _ _ := e.ties .value
      have hrest : inner.TiesAll call (pairsReached rest) _ _ := ties_pairs outer rest
      have hleft : inner.Ties call [] _ _ := .same (Token.column outer column)
      let scope := { inner with alias? := outer.alias? }
      have hparts : e.PartsTied scope call .and := e.partsTied .and
      have halike : scope.Alike call = inner.Alike call := Scope.alike_of_layers rfl rfl
      cases e with
      | text token =>
          exact .skip (equals (Token.column outer column) (Token.column inner token)) hrest
      | condition entries =>
          have hentries : scope.TiesAll call (entriesReached [] entries) _ _ :=
            hparts (.some (.same (Token.column scope column)))
          rw [Scope.TiesAll, halike] at hentries
          exact .cons (hentries.group .and) hrest
      | _ => exact .cons (hleft.equals hright) hrest

end

end Trees

/-! ## Settings given by a wrapper -/

namespace Core

/-- Whether the shape takes settings for the decryptions inside it. -/
def takesEncryption : Core → Bool
  | .string .. | .number .. | .date .. | .concat .. | .aggregate .. => true
  | .choice .. | .cases .. | .json .. | .refer _ | .all _ | .any _ | .between .. => false

/-- The shape with other settings for the decryptions inside it, if it takes any. -/
def withEncryption (settings : Option Settings) : Core → Core
  | .string value prepare steps => .string value { prepare with encryption := settings } steps
  | .number value prepare steps => .number value { prepare with encryption := settings } steps
  | .date value prepare change => .date value { prepare with encryption := settings } change
  | .concat values separator cast _ steps => .concat values separator cast settings steps
  | .aggregate kind value distinct ifNull cast _ =>
    .aggregate kind value distinct ifNull cast settings
  | core => core

/-- The shape before the steps of a text or a number. -/
def unfinished : Core → Core
  | .string value prepare _ => .string value prepare []
  | .number value prepare _ => .number value prepare []
  | core => core

/-- The steps of a text or a number, written in a scope. -/
def finish (scope : Scope) (f : Fragment) : Core → Fragment
  | .string _ _ steps => stringFragment scope f steps
  | .number _ _ steps => numberFragment scope f steps
  | _ => f

/-- The decryptions reached in the steps of a text or a number. -/
def stepsReached : Core → List Decryption
  | .string _ _ steps => stringStepsReached steps
  | .number _ _ steps => numberStepsReached steps
  | _ => []

variable {core : Core} {scope : Scope}

/-- Settings given by a wrapper are in force for all but its steps, which are written in the scope
around it. -/
theorem fragment_withEncryption_some (h : core.takesEncryption = true) (settings : Settings) :
    (core.withEncryption (some settings)).fragment scope
      = core.finish scope
        ((core.unfinished.withEncryption none).fragment (scope.withCall (some settings))) := by
  cases core with
  | string | number | date | concat | aggregate => rfl
  | choice | cases | json | refer | all | any | between => cases h

theorem fragment_withEncryption_none (core : Core) (scope : Scope) :
    (core.withEncryption none).fragment scope
      = core.finish scope ((core.unfinished.withEncryption none).fragment scope) := by
  cases core <;> rfl

@[simp]
theorem takesEncryption_withEncryption (settings : Option Settings) (core : Core) :
    (core.withEncryption settings).takesEncryption = core.takesEncryption := by
  cases core <;> rfl

/-- The steps are tied by the decryptions in them. -/
theorem ties_finish {call : Option Settings} (core : Core) (f : Fragment) :
    scope.Ties call core.stepsReached (core.finish (scope.calling call) f)
      (core.finish scope f) := by
  cases core with
  | string value prepare steps => exact ties_stringSteps steps (.same f)
  | number value prepare steps => exact ties_numberSteps steps (.same f)
  | _ => exact .same f

end Core

/-- A shape that takes settings is a value, and stands as it is where it is not compared. -/
theorem Wrapper.fragment_of_takesEncryption {core : Core} (h : core.takesEncryption = true)
    (alias? : Option String) (scope : Scope) :
    Wrapper.fragment scope ⟨core, none, alias?⟩ = core.fragment scope := by
  cases core with
  | all | any | between => cases h
  | _ => rfl

/-- **Settings given by a wrapper reach the decryptions inside it, save those in the steps of a
text or a number.** They are in force for all that is written of the wrapper before its steps; the
steps are written with the settings around the wrapper. So in every place and after all bindings the
wrapper is compiled as one without settings is where they are given around it, if that makes no
difference to the keys for the decryptions in its steps; dates, joined texts and aggregates have
none. How the keys are written is all that counts, and nothing else would do: where both wrappers
compile to one text with the same bindings, the keys for all decryptions in the steps are written
alike. -/
theorem Wrapper.sql_override (core : Core) (hcore : core.takesEncryption = true)
    (alias? : Option String) (settings : Settings) (scope : Scope) :
    let within := scope.withCall (some settings)
    let given : Wrapper := ⟨core.withEncryption (some settings), none, alias?⟩
    let plain : Wrapper := ⟨core.withEncryption none, none, alias?⟩
    (∃ f, given.fragment scope = core.finish scope f ∧ plain.fragment within = core.finish within f)
    ∧ ((∀ d ∈ core.stepsReached, within.keyFor d = scope.keyFor d) → ∀ b : Bindings,
      ((Part.wrapper given).fragment scope).sql scope.dialect b
          = ((Part.wrapper plain).fragment within).sql scope.dialect b
        ∧ ((Part.item given).fragment scope).sql scope.dialect b
          = ((Part.item plain).fragment within).sql scope.dialect b
        ∧ ∀ parent junction,
          ((Entry.wrapper given).fragment parent junction scope).sql scope.dialect b
            = ((Entry.wrapper plain).fragment parent junction within).sql scope.dialect b)
    ∧ let alike := ∀ d ∈ core.stepsReached,
        Cipher.Alike scope.dialect (within.keyFor d) (scope.keyFor d)
      ((Part.wrapper given).fragment scope).SameExactlyIf scope.dialect
          ((Part.wrapper plain).fragment within) alike
        ∧ ((Part.item given).fragment scope).SameExactlyIf scope.dialect
          ((Part.item plain).fragment within) alike
        ∧ ∀ parent junction, (∀ left ∈ parent, Phrase scope.dialect left) →
          ((Entry.wrapper given).fragment parent junction scope).SameExactlyIf scope.dialect
            ((Entry.wrapper plain).fragment parent junction within) alike := by
  intro within given plain
  have hgiven : given.fragment scope
      = core.finish scope ((core.unfinished.withEncryption none).fragment within) :=
    (Wrapper.fragment_of_takesEncryption (by simpa using hcore) alias? scope).trans
      (core.fragment_withEncryption_some hcore settings)
  have hplain : plain.fragment within
      = core.finish within ((core.unfinished.withEncryption none).fragment within) :=
    (Wrapper.fragment_of_takesEncryption (by simpa using hcore) alias? within).trans
      (core.fragment_withEncryption_none within)
  have hties : scope.Ties (some settings) core.stepsReached (plain.fragment within)
      (given.fragment scope) := by
    rw [hgiven, hplain]
    exact core.ties_finish _
  have hphraseGiven : Phrase scope.dialect (given.fragment scope) :=
    Part.phrase_fragment scope (.wrapper given)
  have hphrasePlain : Phrase scope.dialect (plain.fragment within) :=
    Part.phrase_fragment within (.wrapper plain)
  refine ⟨⟨_, hgiven, hplain⟩, fun hsteps b => ?_, ?_, ?_, fun parent junction hp => ?_⟩
  · have hfragment : plain.fragment within = given.fragment scope := by
      refine hties.eq fun d hd => ?_
      have hkey : within.keyFor d = scope.keyFor d := hsteps d hd
      rw [Scope.Alike, ← hkey]
      exact Cipher.alike_refl _ _
    refine ⟨?_, ?_, fun parent junction => ?_⟩
    · rw [Part.fragment, Part.fragment, hfragment]
    · rw [Part.fragment, Part.fragment, hfragment]
    · rw [Entry.fragment, Entry.fragment, hfragment]
  · exact hties.sameExactlyIf hphrasePlain hphraseGiven
  · exact (hties.aliased alias?).sameExactlyIf (Part.phrase_fragment within (.item plain))
      (Part.phrase_fragment scope (.item given))
  · have hentry : scope.Ties (some settings) core.stepsReached _ _ :=
      Fragment.TiedOption.wrapperEntry (.refl parent) false hties
    exact hentry.sameExactlyIf (phrase_wrapperEntry hp _ hphrasePlain)
      (phrase_wrapperEntry hp _ hphraseGiven)

/-- A sum of two columns that are decrypted, the second with settings of its own. -/
def decryptedSum (own : Settings) : Core :=
  .number (.wrapper ⟨.number (.text "a") { decrypt := some .unset } [], none, none⟩) {}
    [.arithmetic .add (.wrapper ⟨.number (.text "b") { decrypt := some own } [], none, none⟩)]

/-- The key of the second column is complete by itself, and the settings of the sum serve for the
first one; without a secret of its own the second column has no key. With settings around the sum
it has one, but not the one that the settings of the sum would give. -/
theorem Wrapper.sql_override_sum :
    let settings : Settings := { secret := some "k", vector := some "v" }
    let own : Settings := { secret := some "s", vector := some "w" }
    let scope : Scope := .outermost .mysql none
    let within := scope.withCall (some settings)
    let around : Scope := .outermost .mysql (some { secret := some "m", vector := some "n" })
    let given (own : Settings) : Wrapper :=
      ⟨(decryptedSum own).withEncryption (some settings), none, none⟩
    let plain (own : Settings) : Wrapper := ⟨(decryptedSum own).withEncryption none, none, none⟩
    (decryptedSum own).stepsReached = [⟨own, none⟩]
      ∧ within.keyFor ⟨own, none⟩ = scope.keyFor ⟨own, none⟩
      ∧ (∃ text b, ((Part.item (given own)).fragment scope).sql .mysql {} = (.ok text, b)
        ∧ b.values = [.identifier "a", .text "k", .text "v", .identifier "b", .text "s", .text "w"]
        ∧ ((Part.item (plain own)).fragment within).sql .mysql {} = (.ok text, b))
      ∧ (∃ b, ((Part.item (given .unset)).fragment scope).sql .mysql {}
        = (.error (.missing "secret" "encryption"), b))
      ∧ (∃ text b, ((Part.item (plain .unset)).fragment within).sql .mysql {} = (.ok text, b))
      ∧ ∃ text b, ((Part.item (given .unset)).fragment around).sql .mysql {} = (.ok text, b)
        ∧ ((Part.item (plain .unset)).fragment (around.withCall (some settings))).sql .mysql {}
          ≠ (.ok text, b) := by
  intro settings own scope within around given plain
  have hkey : within.keyFor ⟨own, none⟩ = scope.keyFor ⟨own, none⟩ := rfl
  have hsteps : ∀ d ∈ (decryptedSum own).stepsReached, within.keyFor d = scope.keyFor d := by
    intro d hd
    rw [List.mem_singleton.1 hd]
    exact hkey
  have hsame := ((sql_override (decryptedSum own) rfl none settings scope).2.1 hsteps {}).2.1
  refine ⟨rfl, hkey, ⟨_, _, rfl, rfl, hsame.symm⟩, ⟨_, rfl⟩, ⟨_, _, rfl⟩, _, _, rfl, ?_⟩
  intro hplain
  have halike := (sql_override (decryptedSum .unset) rfl none settings around).2.2.2.1.onlyIf
    (b := {}) rfl hplain
  exact absurd (halike ⟨.unset, none⟩ (List.mem_singleton.2 rfl)) (by decide)

end QueryTree
