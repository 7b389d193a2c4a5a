import QueryTree.Proofs.Condition.Predicate
import QueryTree.Proofs.Nesting.Steps

/-!
# What trees show from outside

The face of what is written for a tree, read off the tree: parentheses stand around conditions
with several entries and around what steps are applied to, not around a single comparison.

* `Expr.face`, `conditionFace`, `Entry.face`, `Wrapper.face`, `Core.face`: the faces of trees.
* `Expr.shows_fragment`, `shows_group`, `Entry.shows_fragment`: that these are the faces of what is
  written, one theorem for each emitter, by recursion over the tree.
-/

namespace QueryTree

open Fragment (word literal tokens spaced words parens call Shows Avoids Inline)

variable {dialect : Dialect}

/-! ## Comparisons -/

theorem Comparator.exists_relation {comparator : Comparator} (h : comparator.testsRows = false) :
    ∃ w ∈ comparator.words, w ∈ relations := by
  cases comparator <;> simp_all [testsRows, words, relations]

theorem Comparator.not_mem_clauseWords (comparator : Comparator) :
    ∀ w ∈ comparator.words, w ∉ clauseWords := by
  cases comparator <;> decide +kernel

theorem inline_leftOperand {parent : Option Fragment} (h : ∀ f ∈ parent, Inline f)
    (comparison : String) : Inline (leftOperand parent comparison) := by
  cases parent with
  | none => exact (Shows.fail .blank _).inline (by simp)
  | some f => exact h f rfl

/-- Two operands with the words of a comparison between them. -/
theorem shows_related (comparator : Comparator) (hc : comparator.testsRows = false)
    {left right : Fragment} (hl : Inline left) (hr : Inline right) :
    Shows .exposed (spaced [left, words comparator.words, right]) := by
  have hwords := Fragment.avoids_words comparator.not_mem_clauseWords
  refine (Fragment.avoids_spaced (by simp [hl, hr, hwords])).shows_exposed ?_
  obtain ⟨w, hw, hrelation⟩ := Comparator.exists_relation hc
  exact ⟨w, by simp [hw], hrelation⟩

theorem shows_equals {left right : Fragment} (hl : Inline left) (hr : Inline right) :
    Shows .exposed (equals left right) :=
  shows_related .eq rfl hl hr

theorem inline_word_of_mem {w : String} (h : w ∈ ["IS", "NOT", "NULL", "BETWEEN", "AND"]) :
    Inline (word w) := by
  have hall : ∀ w ∈ ["IS", "NOT", "NULL", "BETWEEN", "AND"], w ∉ clauseWords := by decide +kernel
  exact Fragment.avoids_word (hall w h)

theorem shows_isNullTest {left : Fragment} (h : Inline left) :
    Shows .exposed (isNullTest left) := by
  have hparts : Inline (isNullTest left) :=
    Fragment.avoids_spaced (by simp [h, inline_word_of_mem])
  exact hparts.shows_exposed ⟨"IS", by simp [isNullTest], by simp [relations]⟩

theorem shows_isNotNullTest {left : Fragment} (h : Inline left) :
    Shows .exposed (isNotNullTest left) := by
  have hparts : Inline (isNotNullTest left) :=
    Fragment.avoids_spaced (by simp [h, inline_word_of_mem])
  exact hparts.shows_exposed ⟨"IS", by simp [isNotNullTest], by simp [relations]⟩

theorem shows_inList (field : String) {comparator : Comparator}
    (hc : comparator.testsRows = false) {left : Fragment} (hl : Inline left)
    (items : List Fragment) : Shows .exposed (inList field comparator left items) := by
  unfold inList
  split
  · exact .fail _ _
  · exact shows_related comparator hc hl (Fragment.avoids_parens _)

theorem avoids_textOperand {ws : List String} (dialect : Dialect) (hcast : "CAST" ∉ ws)
    {f : Fragment} (h : Avoids ws f) : Avoids ws (dialect.textOperand f) := by
  cases dialect with
  | postgresql => exact (Fragment.avoids_word hcast).append (Fragment.avoids_parens _)
  | mysql => exact h
  | sqlite => exact h

/-- Wildcards bring no words but the function or operator that puts texts together. -/
theorem avoids_wildcarded {ws : List String} (hws : ∀ w ∈ ["CAST", "CONCAT", "||"], w ∉ ws)
    (ends : Bool × Bool) {f : Fragment} (h : Avoids ws f) :
    Avoids ws (wildcarded dialect ends f) := by
  have htext := avoids_textOperand dialect (hws "CAST" (by simp)) h
  have hwildcard : Avoids ws (literal "%") := fun _ w hw => by simp [literal, Fragment.surface,
    Lexeme.word?] at hw
  have hparts : ∀ part ∈ (if ends.1 then [literal "%"] else []) ++ [dialect.textOperand f]
      ++ (if ends.2 then [literal "%"] else []), Avoids ws part := by
    obtain ⟨opened, closed⟩ := ends
    cases opened <;> cases closed <;> simp [htext, hwildcard]
  have hoperator : "||" ∉ ws := hws "||" (by simp)
  cases dialect with
  | mysql =>
      exact (Fragment.avoids_word (hws "CONCAT" (by simp))).append (Fragment.avoids_parens _)
  | postgresql => exact Fragment.avoids_operated hoperator hparts
  | sqlite => exact Fragment.avoids_operated hoperator hparts

theorem shows_compareWith {comparator : Comparator} (hc : comparator.testsRows = false)
    {left right : Fragment} (hl : Inline left) (hr : Inline right) :
    Shows .exposed (compareWith dialect comparator left right) := by
  refine shows_related comparator hc hl ?_
  split
  · exact avoids_wildcarded (by decide +kernel) _ hr
  · exact hr

/-- A wrapper under a column is compared with it, unless it has comparisons of its own. -/
theorem shows_wrapperEntry {parent : Option Fragment} (hp : ∀ f ∈ parent, Inline f)
    (compared : Bool) {f : Fragment} {face : Face} (h : Shows face f) (hface : face ≠ .clausal) :
    Shows (if parent.isSome && !compared then .exposed else face)
      (wrapperEntry parent compared f) := by
  cases parent with
  | none => exact h
  | some left =>
      cases compared with
      | true => exact h
      | false =>
          have htokens : Inline (tokens [.space, .word "=", .space]) :=
            Fragment.avoids_tokens (by decide +kernel)
          refine ((hp left rfl).crossed (htokens.append (h.inline hface))).shows_exposed ?_
          exact ⟨"=", by simp [Fragment.surface, Fragment.surface_tokens, Lexeme.word?],
            by simp [relations]⟩

/-! ## Faces of trees -/

mutual

/-- What an expression shows. -/
def Expr.face : Expr → Face
  | .wrapper w => w.face
  | .condition entries => conditionFace false entries
  | .null | .bool _ | .number _ | .text _ | .list _ => .closed

/-- What a group of entries shows; `compared` tells whether they stand under an operand. -/
def conditionFace (compared : Bool) : List Entry → Face
  | [entry] => entry.face compared
  | _ => .closed

/-- What a list of conditions shows. -/
def connectiveFace (compared : Bool) : List (List Entry) → Face
  | [] => .blank
  | [entries] => conditionFace compared entries
  | _ => .closed

/-- What an entry shows. -/
def Entry.face (compared : Bool) : Entry → Face
  | .wrapper w => if compared && !w.compare.isSome then .exposed else w.face
  | .all conditions => connectiveFace compared conditions
  | .any conditions => connectiveFace compared conditions
  | .between .. => .exposed
  | .compare comparator _ => if comparator.testsRows then .closed else .exposed
  | .column _ (.condition entries) => conditionFace true entries
  | .column .. => .exposed

/-- What a wrapper shows. -/
def Wrapper.face : Wrapper → Face
  | ⟨_, some entries, _⟩ => conditionFace true entries
  | ⟨core, none, _⟩ => core.face

/-- What a wrapper shows before it is compared: nothing, if anything is done to its value. -/
def Core.face : Core → Face
  | .string value prepare steps =>
    if prepare.isIdle && steps.all StringStep.isIdle then value.face else .closed
  | .number value prepare steps => if prepare.isIdle && steps.isEmpty then value.face else .closed
  | .date value prepare change => if prepare.isIdle && change.isIdle then value.face else .closed
  | .all conditions | .any conditions => connectiveFace false conditions
  | .between .. => .exposed
  | _ => .closed

end

mutual

theorem Expr.face_ne_clausal : ∀ e : Expr, e.face ≠ .clausal
  | .wrapper w => w.face_ne_clausal
  | .condition entries => conditionFace_ne_clausal false entries
  | .null | .bool _ | .number _ | .text _ | .list _ => nofun

theorem conditionFace_ne_clausal (compared : Bool) :
    ∀ entries : List Entry, conditionFace compared entries ≠ .clausal
  | [] => nofun
  | [entry] => entry.face_ne_clausal compared
  | _ :: _ :: _ => nofun

theorem connectiveFace_ne_clausal (compared : Bool) :
    ∀ conditions : List (List Entry), connectiveFace compared conditions ≠ .clausal
  | [] => nofun
  | [entries] => conditionFace_ne_clausal compared entries
  | _ :: _ :: _ => nofun

theorem Entry.face_ne_clausal (compared : Bool) : ∀ entry : Entry, entry.face compared ≠ .clausal
  | .wrapper w => by
      have hw := w.face_ne_clausal
      simp only [Entry.face]
      split
      · nofun
      · exact hw
  | .all conditions => connectiveFace_ne_clausal compared conditions
  | .any conditions => connectiveFace_ne_clausal compared conditions
  | .between .. => nofun
  | .compare .. => by
      simp only [Entry.face]
      split <;> nofun
  | .column _ (.condition entries) => conditionFace_ne_clausal true entries
  | .column _ .null | .column _ (.bool _) | .column _ (.number _) | .column _ (.text _)
  | .column _ (.list _) | .column _ (.wrapper _) => nofun

theorem Wrapper.face_ne_clausal : ∀ w : Wrapper, w.face ≠ .clausal
  | ⟨_, some entries, _⟩ => conditionFace_ne_clausal true entries
  | ⟨core, none, _⟩ => core.face_ne_clausal

theorem Core.face_ne_clausal : ∀ core : Core, core.face ≠ .clausal
  | .string value .. | .number value .. | .date value .. => by
      have hvalue := value.face_ne_clausal
      simp only [Core.face]
      split
      · exact hvalue
      · nofun
  | .all conditions | .any conditions => connectiveFace_ne_clausal false conditions
  | .concat .. | .choice .. | .cases .. | .json .. | .refer .. | .aggregate .. | .between .. =>
      nofun

end

/-! ## Trees and what is written -/

theorem inline_of_mem_none : ∀ f ∈ (none : Option Fragment), Inline f := by
  simp

theorem inline_of_mem_some {left : Fragment} (h : Inline left) : ∀ f ∈ some left, Inline f := by
  simpa using h

/-- What is compared shows its operator. -/
theorem shows_predicate (field : String) {left : Fragment} (hleft : Inline left)
    (junction : Junction) (scope : Scope) {comparator : Comparator}
    (hrows : comparator.testsRows = false) {operand : Expr} {predicate : Predicate}
    (hchooses : comparator.Chooses operand predicate)
    (hoperand : Inline (operand.fragment .value scope))
    (hgroup : ∀ entries, operand = .condition entries →
      Inline (junction.group (entryFragments none junction scope entries))) :
    Shows .exposed (predicate.fragment field comparator left junction scope) := by
  cases hchooses with
  | rows _ _ _ h | noQuery _ h => simp [h] at hrows
  | isNull => exact shows_isNullTest hleft
  | isNotNull => exact shows_isNotNullTest hleft
  | items items listed _ hlisted => exact shows_inList field hlisted hleft _
  | single _ listed _ hlisted => exact shows_inList field hlisted hleft _
  | nested entries => exact shows_related comparator hrows hleft (hgroup entries rfl)
  | plain => exact shows_compareWith hrows hleft hoperand

theorem shows_compareEntry (parent : Option Fragment) (hp : ∀ f ∈ parent, Inline f)
    (junction : Junction) (scope : Scope) (comparator : Comparator) {operand : Expr}
    (hoperand : Inline (operand.fragment .value scope))
    (hgroup : ∀ entries, operand = .condition entries →
      Inline (junction.group (entryFragments none junction scope entries))) :
    Shows (if comparator.testsRows then .closed else .exposed)
      ((Entry.compare comparator operand).fragment parent junction scope) := by
  have hchooses := comparator.chooses_predicate operand
  rw [Entry.fragment_compare_eq]
  cases hrows : comparator.testsRows with
  | false =>
      exact shows_predicate _ (inline_leftOperand hp _) junction scope hrows hchooses hoperand
        hgroup
  | true =>
      obtain ⟨query, _, _, -, hpredicate⟩ | ⟨-, hpredicate⟩ := hchooses.of_testsRows hrows
      · rw [hpredicate]
        intro _
        cases comparator <;> first | rfl | cases hrows
      · rw [hpredicate]
        exact .fail _ _

/-- A column that is compared with anything but a condition of its own. -/
theorem shows_columnEntry (parent : Option Fragment) (junction : Junction) (scope : Scope)
    (key : String) {operand : Expr} (hoperand : Inline (operand.fragment .value scope))
    (hplain : ∀ entries, operand ≠ .condition entries) :
    Shows .exposed ((Entry.column key operand).fragment parent junction scope) := by
  rw [Entry.fragment_column_eq _ _ _ _ hplain]
  exact shows_predicate key ((shows_column scope key).inline (by simp)) junction scope rfl
    operand.chooses_predicate hoperand fun entries h => absurd h (hplain entries)

/-! ### Expressions that enclose their parts -/

theorem Covers.shows_closed {idle : Bool} {f g : Fragment} (h : Covers idle f g)
    (hf : f.face = .closed) : Shows .closed g := by
  have hshows : Shows (if idle then .closed else .closed) g := h.shows fun _ => hf
  simpa using hshows

theorem face_concatFragment (separator : Option String) (parts : List Fragment) :
    (concatFragment dialect separator parts).face = .closed := by
  have hconcat : "CONCAT" ∈ Dialect.mysql.ownFunctions := by decide
  have hseparated : "CONCAT_WS" ∈ Dialect.mysql.ownFunctions := by decide
  unfold concatFragment
  split
  · rfl
  · rfl
  · exact face_ownCall hseparated _
  · exact face_ownCall hconcat _

theorem face_collect (options : JsonOptions) {f : Fragment}
    (h : options.aggregate = false → f.face = .closed) :
    (options.collect dialect f).face = .closed := by
  have hcollect : dialect.jsonAggregateFunction ∈ dialect.ownFunctions := by
    cases dialect <;> simp [Dialect.jsonAggregateFunction, Dialect.ownFunctions]
  unfold JsonOptions.collect
  split
  · exact face_ownCall hcollect _
  · next hplain => exact h (by simpa using hplain)

theorem face_jsonBody (options : JsonOptions) (scope : Scope) (body : JsonBody) :
    (body.fragment options scope).face = .closed := by
  have hobject : scope.dialect.jsonObjectFunction ∈ scope.dialect.ownFunctions := by
    cases scope.dialect <;> simp [Dialect.jsonObjectFunction, Dialect.ownFunctions]
  have harray : ∀ arguments, (call scope.dialect.jsonArrayFunction arguments).face = .closed :=
    face_ownCall jsonArrayFunction_mem_ownFunctions
  cases body with
  | object fields => exact face_collect options fun _ => face_ownCall hobject _
  | array items => exact face_collect options fun _ => harray _
  | single value =>
      refine face_collect options fun hplain => ?_
      rw [if_neg (by simp [hplain])]
      exact harray _

theorem face_jsonExtract (f path : Fragment) : (dialect.jsonExtract f path).face = .closed := by
  have hmysql : "JSON_EXTRACT" ∈ Dialect.mysql.ownFunctions := by decide
  cases dialect with
  | postgresql => rfl
  | mysql => exact face_ownCall hmysql _
  | sqlite => exact face_ownCall hmysql _

theorem face_jsonContains {f candidate g : Fragment}
    (h : dialect.jsonContains? f candidate = some g) : g.face = .closed := by
  have hmysql : "JSON_CONTAINS" ∈ Dialect.mysql.ownFunctions := by decide
  cases dialect with
  | mysql =>
      cases h
      exact face_ownCall hmysql _
  | postgresql =>
      cases h
      have hoperator : (tokens [.space, .word "@>", .space]).face = .closed := by decide +kernel
      change ((f.cast ["JSONB"]).face.join (tokens [.space, .word "@>", .space]).face).join
        (candidate.cast ["JSONB"]).face = .closed
      rw [face_cast, face_cast, hoperator]
      rfl
  | sqlite => cases h

theorem shows_jsonOptions (options : JsonOptions) {f : Fragment} (h : f.face = .closed) :
    Shows .closed (options.apply dialect f) := by
  obtain ⟨isArray, aggregate, extract, contains⟩ := options
  -- the test comes after the extraction, so it is settled for any fragment first
  have htested : ∀ {g : Fragment}, g.face = .closed →
      Shows .closed (JsonOptions.apply dialect ⟨isArray, aggregate, none, contains⟩ g) := by
    intro g hg
    cases contains with
    | none => exact fun _ => hg
    | some candidate =>
        simp only [JsonOptions.apply]
        split
        · next tested ht => exact fun _ => face_jsonContains ht
        · exact .halted _ _ _
  cases extract with
  | none => exact htested h
  | some path => exact htested (face_jsonExtract _ _)

theorem face_aggregated (kind : AggregateKind) (arguments : List Fragment) :
    (call kind.function arguments).face = .closed := by
  refine face_commonCall ?_ _
  cases kind <;> simp [AggregateKind.function, commonFunctions]

theorem shows_between {parent : Option Fragment} (hp : ∀ f ∈ parent, Inline f)
    {low high : Fragment} (hl : Inline low) (hh : Inline high) :
    Shows .exposed (betweenFragment parent low high) := by
  have hleft := inline_leftOperand hp "between"
  refine (Fragment.avoids_spaced (by simp [hleft, hl, hh, inline_word_of_mem])).shows_exposed ?_
  exact ⟨"BETWEEN", by simp, by simp [relations]⟩

/-! ### The emitters -/

mutual

theorem Expr.shows_fragment (place : Place) (scope : Scope) :
    ∀ e : Expr, Shows e.face (e.fragment place scope)
  | .null => fun _ => face_null
  | .bool _ => fun _ => rfl
  | .number _ => fun _ => rfl
  | .text token => shows_token place scope token
  | .list _ => .fail _ _
  | .wrapper w => w.shows_fragment scope
  | .condition entries => shows_group .and scope inline_of_mem_none entries

/-- A group of entries: one stands as it is, several are in parentheses. -/
theorem shows_group (junction : Junction) (scope : Scope) {parent : Option Fragment}
    (hp : ∀ f ∈ parent, Inline f) : ∀ entries : List Entry,
      Shows (conditionFace parent.isSome entries)
        (junction.group (entryFragments parent junction scope entries))
  | [] => .fail _ _
  | [entry] => entry.shows_fragment junction scope hp
  | _ :: _ :: _ => fun _ => rfl

theorem shows_nest (outer junction : Junction) (scope : Scope) {parent : Option Fragment}
    (hp : ∀ f ∈ parent, Inline f) : ∀ conditions : List (List Entry),
      Shows (connectiveFace parent.isSome conditions)
        (outer.nest (groupFragments parent junction scope conditions))
  | [] => fun _ => rfl
  | [entries] => shows_group junction scope hp entries
  | _ :: _ :: _ => fun _ => rfl

theorem Entry.shows_fragment (junction : Junction) (scope : Scope) {parent : Option Fragment}
    (hp : ∀ f ∈ parent, Inline f) :
    ∀ entry : Entry, Shows (entry.face parent.isSome) (entry.fragment parent junction scope)
  | .wrapper w => shows_wrapperEntry hp _ (w.shows_fragment scope) w.face_ne_clausal
  | .all conditions => shows_nest .and junction scope hp conditions
  | .any conditions => shows_nest .or junction scope hp conditions
  | .between low high =>
      shows_between hp ((low.shows_fragment .value scope).inline low.face_ne_clausal)
        ((high.shows_fragment .value scope).inline high.face_ne_clausal)
  | .compare comparator (.condition entries) => by
      have hoperand := shows_group .and scope inline_of_mem_none entries
      have hgroup := shows_group junction scope inline_of_mem_none entries
      refine shows_compareEntry parent hp junction scope comparator
        (hoperand.inline (conditionFace_ne_clausal _ entries)) ?_
      rintro _ ⟨⟩
      exact hgroup.inline (conditionFace_ne_clausal _ entries)
  | .compare comparator .null | .compare comparator (.bool _) | .compare comparator (.number _)
  | .compare comparator (.text _) | .compare comparator (.list _) =>
      shows_compareEntry parent hp junction scope comparator
        ((Expr.shows_fragment .value scope _).inline (Expr.face_ne_clausal _)) nofun
  | .compare comparator (.wrapper w) =>
      shows_compareEntry parent hp junction scope comparator
        ((w.shows_fragment scope).inline w.face_ne_clausal) nofun
  | .column key (.condition entries) =>
      shows_group junction scope
        (inline_of_mem_some ((shows_column scope key).inline (by simp))) entries
  | .column key (.wrapper w) =>
      shows_columnEntry parent junction scope key
        ((w.shows_fragment scope).inline w.face_ne_clausal) nofun
  | .column key .null | .column key (.bool _) | .column key (.number _) | .column key (.text _)
  | .column key (.list _) =>
      shows_columnEntry parent junction scope key
        ((Expr.shows_fragment .value scope _).inline (Expr.face_ne_clausal _)) nofun

theorem Wrapper.shows_fragment (scope : Scope) : ∀ w : Wrapper, Shows w.face (w.fragment scope)
  | ⟨core, none, _⟩ => by
      have hcore := core.shows_fragment scope
      cases core with
      | all conditions => exact shows_nest .and .and scope inline_of_mem_none conditions
      | any conditions => exact shows_nest .or .and scope inline_of_mem_none conditions
      | between low high =>
          exact shows_between inline_of_mem_none
            ((low.shows_fragment .value scope).inline low.face_ne_clausal)
            ((high.shows_fragment .value scope).inline high.face_ne_clausal)
      | _ => exact hcore
  | ⟨core, some entries, _⟩ =>
      shows_group .and scope
        (inline_of_mem_some ((core.shows_fragment scope).inline core.face_ne_clausal)) entries

theorem Core.shows_fragment (scope : Scope) : ∀ core : Core, Shows core.face (core.fragment scope)
  | .string value prepare steps =>
      ((covers_preparation _ prepare _).trans (covers_stringFragment scope _ steps)).shows
        (value.shows_fragment .column _)
  | .number value prepare steps =>
      ((covers_preparation _ prepare _).trans (covers_numberFragment scope _ steps)).shows
        (value.shows_fragment .column _)
  | .date value prepare change =>
      ((covers_preparation _ prepare _).trans (covers_dateChange change _)).shows
        (value.shows_fragment .column _)
  | .concat values separator cast encryption steps =>
      ((covers_castOptional _ cast).trans (covers_stringFragment _ _ steps)).shows_closed
        (face_concatFragment separator _)
  | .choice check yes no => by
      have hchoice : "IF" ∈ Dialect.mysql.ownFunctions := by decide
      simp only [Core.fragment]
      split
      · exact fun _ => face_ownCall hchoice _
      · exact .fail _ _
  | .cases branches otherwise => fun _ => rfl
  | .json options body none => shows_jsonOptions options (face_jsonBody options scope body)
  | .json options body (some query) => shows_jsonOptions options rfl
  | .refer query => fun _ => rfl
  | .aggregate kind value distinct none cast encryption =>
      (covers_castOptional _ cast).shows_closed (face_aggregated kind _)
  | .aggregate kind value distinct (some e) cast encryption =>
      (covers_castOptional _ cast).shows_closed (face_ownCall ifNullFunction_mem_ownFunctions _)
  | .all _ | .any _ | .between _ _ => .fail _ _

end

end QueryTree
