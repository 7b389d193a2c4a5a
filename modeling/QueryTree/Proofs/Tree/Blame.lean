import QueryTree.Proofs.Binding.Content
import QueryTree.Proofs.Emission.Congruence
import QueryTree.Proofs.Tree.Site

/-!
# Errors that a tree has to answer for

Some errors are raised only where a tree is not well formed: a joined query without an alias, a
test for rows of something that is no query, and a combinator that is compared as a value is. No
single step of an expression adds such an error to what is written.

* `CompileError.isGuarded`: the errors in question.
* `Site.Raises`: the places that raise them.
* `Fragment.Accounted`: every such error of a fragment is raised by one of the given places.
* `accounted_join`, `accounted_group`, `accounted_dateChange` and their companions: one for each way
  to put fragments together.
-/

namespace QueryTree

open Fragment (word literal tokens join spaced commas operated words parens call)

/-- The errors that are raised only where a tree is not well formed. -/
def CompileError.isGuarded : CompileError → Bool
  | .missing param _ => param == "alias" || param == "data"
  | .invalid _ (.expected .subquery) => true
  | e => e.isInternal

/-- Errors that no statement is to blame for are guarded against. -/
theorem isGuarded_of_isInternal {e : CompileError} (h : e.isInternal = true) :
    e.isGuarded = true := by
  unfold CompileError.isInternal at h
  split at h
  · rfl
  · rfl
  · cases h

/-- A place that raises an error: a joined query without an alias, a test for rows of something that
is no query, or a combinator. -/
def Site.Raises (e : CompileError) : Site → Prop
  | .join ⟨_, _, query⟩ =>
    query.isDerived = true ∧ query.alias? = none ∧ ∃ context, e = .missing "alias" context
  | .comparison comparator operand =>
    comparator.testsRows = true ∧ operand.isQuery = false
      ∧ ∃ field, e = .invalid field (.expected .subquery)
  | .shape core => ∃ c, core.kind = .combinator c ∧ e = .invalid c.key .noValue
  | .column _ => False

namespace Fragment

/-- Every guarded error of a fragment is raised by one of the places. -/
def Accounted (sites : List Site) (f : Fragment) : Prop :=
  ∀ e, .error e ∈ f.hurdles → e.isGuarded = true → ∃ site ∈ sites, site.Raises e

end Fragment

section Fragments

variable {sites : List Site} {dialect : Dialect} {f g : Fragment} {fs : List Fragment}

/-! ## Fragments put together -/

/-- What has no errors needs no account of them. -/
theorem accounted_of_hurdles (h : f.hurdles = []) : f.Accounted sites := by
  simp [Fragment.Accounted, h]

@[simp] theorem accounted_empty : Fragment.empty.Accounted sites :=
  accounted_of_hurdles rfl

@[simp] theorem accounted_token (t : Lexeme) : (Fragment.token t).Accounted sites :=
  accounted_of_hurdles rfl

@[simp] theorem accounted_word (w : String) : (word w).Accounted sites :=
  accounted_of_hurdles rfl

@[simp] theorem accounted_literal (s : String) : (literal s).Accounted sites :=
  accounted_of_hurdles rfl

@[simp] theorem accounted_value (v : Value) : (Fragment.value v).Accounted sites :=
  accounted_of_hurdles rfl

@[simp] theorem accounted_text (s : String) : (Fragment.text s).Accounted sites :=
  accounted_of_hurdles rfl

@[simp] theorem accounted_secret (s : String) : (Fragment.secret s).Accounted sites :=
  accounted_of_hurdles rfl

@[simp] theorem accounted_path (p : String) : (Fragment.path p).Accounted sites :=
  accounted_of_hurdles rfl

@[simp] theorem accounted_outputName (name : String) :
    (Fragment.outputName name).Accounted sites :=
  accounted_of_hurdles rfl

@[simp] theorem accounted_tokens (ts : List Lexeme) : (tokens ts).Accounted sites :=
  accounted_of_hurdles (Fragment.hurdles_tokens ts)

@[simp] theorem accounted_words (ws : List String) : (words ws).Accounted sites :=
  accounted_of_hurdles (Fragment.hurdles_words ws)

@[simp] theorem accounted_mode (m : Cipher.Mode) : (Fragment.mode m).Accounted sites := by
  simp [Fragment.Accounted, Fragment.hurdles]

/-- Errors that nothing guards against need no account. -/
theorem accounted_fail {e : CompileError} (h : e.isGuarded = false) :
    (Fragment.fail e).Accounted sites := by
  intro e' hmem hguarded
  cases List.mem_singleton.1 hmem
  rw [h] at hguarded
  cases hguarded

/-- The errors of two parts are those of both. -/
@[simp] theorem accounted_append :
    (f ++ g).Accounted sites ↔ f.Accounted sites ∧ g.Accounted sites := by
  simp only [Fragment.Accounted, Fragment.hurdles_append, List.mem_append, or_imp, forall_and]

/-- The order in which two sides are bound does not matter to the places of their errors. -/
theorem accounted_crossed (hf : f.Accounted sites) (hg : g.Accounted sites) :
    (Fragment.crossed f g).Accounted sites := by
  intro e hmem
  obtain hmem | hmem := List.mem_append.1 hmem
  · exact hg e hmem
  · exact hf e hmem

/-- The errors of a list are those of its items. -/
@[simp] theorem accounted_join (separator : List Lexeme) :
    (join separator fs).Accounted sites ↔ ∀ f ∈ fs, f.Accounted sites := by
  simp only [Fragment.Accounted, Fragment.hurdles_join, List.mem_flatMap]
  constructor
  · intro h f hf e he
    exact h e ⟨f, hf, he⟩
  · rintro h e ⟨f, hf, he⟩
    exact h f hf e he

@[simp] theorem accounted_parens : (parens f).Accounted sites ↔ f.Accounted sites :=
  Iff.rfl

@[simp] theorem accounted_spaced : (spaced fs).Accounted sites ↔ ∀ f ∈ fs, f.Accounted sites :=
  accounted_join _

theorem accounted_pair (hf : f.Accounted sites) (hg : g.Accounted sites) :
    (spaced [f, g]).Accounted sites := by
  simpa using ⟨hf, hg⟩

theorem accounted_three {f' : Fragment} (hf : f.Accounted sites) (hg : g.Accounted sites)
    (hf' : f'.Accounted sites) : (spaced [f, g, f']).Accounted sites := by
  simpa using ⟨hf, hg, hf'⟩

@[simp] theorem accounted_commas : (commas fs).Accounted sites ↔ ∀ f ∈ fs, f.Accounted sites :=
  accounted_join _

@[simp] theorem accounted_operated (operator : String) :
    (operated operator fs).Accounted sites ↔ ∀ f ∈ fs, f.Accounted sites :=
  accounted_join _

/-- **A call has the errors of its arguments.** -/
@[simp] theorem accounted_call (function : String) :
    (call function fs).Accounted sites ↔ ∀ f ∈ fs, f.Accounted sites := by
  simp [call]

@[simp] theorem accounted_cast (type : List String) :
    (f.cast type).Accounted sites ↔ f.Accounted sites := by
  simp [Fragment.cast]

@[simp] theorem accounted_clause (keywords : List String) :
    (clause keywords f).Accounted sites ↔ f.Accounted sites := by
  simp [clause]

/-- Something that is not to be had in this dialect may follow. -/
theorem accounted_halted (hf : f.Accounted sites) {e : CompileError} (he : e.isGuarded = false) :
    (f ++ .fail e).Accounted sites :=
  accounted_append.2 ⟨hf, accounted_fail he⟩

theorem accounted_ite {c : Prop} [Decidable c] (hf : f.Accounted sites)
    (hg : g.Accounted sites) : (if c then f else g).Accounted sites := by
  split
  · exact hf
  · exact hg

/-! ## Texts of callers -/

theorem accounted_constant (constant : Token.Constant) :
    (constant.fragment dialect).Accounted sites := by
  cases constant <;> cases dialect <;> exact accounted_of_hurdles rfl

theorem accounted_star (token : String) : (Token.star token).Accounted sites := by
  unfold Token.star
  split
  · exact accounted_word _
  · split
    · split
      · exact accounted_append.2 ⟨accounted_token _, accounted_word _⟩
      · exact accounted_fail rfl
    · exact accounted_fail rfl

/-- **A text of a caller that stands for a column fails for no guarded error.** -/
theorem accounted_column (scope : Scope) (token : String) :
    (Token.column scope token).Accounted sites := by
  unfold Token.column
  split
  · exact accounted_constant _
  · split
    · exact accounted_star token
    · split
      · exact accounted_word _
      · split
        · exact accounted_text _
        · split
          · exact accounted_text _
          · exact accounted_path _

/-- Nor does one that stands for a value. -/
theorem accounted_placeToken (place : Place) (scope : Scope) (token : String) :
    (place.token scope token).Accounted sites := by
  cases place with
  | column => exact accounted_column scope token
  | value =>
      simp only [Place.token, Token.value]
      split
      · exact accounted_constant _
      · split
        · exact accounted_word _
        · split
          · exact accounted_text _
          · split
            · exact accounted_path _
            · exact accounted_text _

theorem accounted_sortKey (scope : Scope) (outputs : List String) (token : String) :
    (sortKey scope outputs token).Accounted sites := by
  unfold sortKey
  split
  · exact accounted_path _
  · exact accounted_column scope token

/-! ## Conditions -/

theorem accounted_nest (junction : Junction) (h : ∀ f ∈ fs, f.Accounted sites) :
    (junction.nest fs).Accounted sites := by
  unfold Junction.nest
  split
  · exact accounted_empty
  · exact h _ List.mem_cons_self
  · simpa [Junction.chain] using h

theorem accounted_chain (junction : Junction) (h : ∀ f ∈ fs, f.Accounted sites) :
    (junction.chain fs).Accounted sites :=
  (accounted_operated _).2 h

/-- A condition without entries is refused, but not by a guarded error. -/
theorem accounted_group (junction : Junction) (h : ∀ f ∈ fs, f.Accounted sites) :
    (junction.group fs).Accounted sites := by
  unfold Junction.group
  split
  · exact accounted_fail rfl
  · exact accounted_nest junction h

theorem accounted_conditionClause (keyword : String) (junction : Junction)
    (h : ∀ f ∈ fs, f.Accounted sites) :
    (conditionClause keyword junction fs).Accounted sites := by
  unfold conditionClause
  split
  · exact accounted_empty
  · exact (accounted_clause _).2 (accounted_chain junction h)

theorem accounted_listClause (keywords : List String) (h : ∀ f ∈ fs, f.Accounted sites) :
    (listClause keywords fs).Accounted sites := by
  unfold listClause
  split
  · exact accounted_empty
  · simpa using h

theorem accounted_none : ∀ f ∈ (none : Option Fragment), f.Accounted sites := by
  simp

/-- A comparison without a column is refused for that reason. -/
theorem accounted_leftOperand {parent : Option Fragment} (hp : ∀ f ∈ parent, f.Accounted sites)
    (comparison : String) : (leftOperand parent comparison).Accounted sites := by
  cases parent with
  | none => exact accounted_fail rfl
  | some f => exact hp f rfl

theorem accounted_between {parent : Option Fragment} (hp : ∀ f ∈ parent, f.Accounted sites)
    (hf : f.Accounted sites) (hg : g.Accounted sites) :
    (betweenFragment parent f g).Accounted sites :=
  accounted_spaced.2 (by simpa using ⟨accounted_leftOperand hp _, hf, hg⟩)

/-- An empty list is refused for that reason. -/
theorem accounted_inList (field : String) (comparator : Comparator) (hl : f.Accounted sites)
    (h : ∀ f ∈ fs, f.Accounted sites) : (inList field comparator f fs).Accounted sites := by
  unfold inList
  split
  · exact accounted_fail rfl
  · simpa [hl] using h

theorem accounted_equals (hf : f.Accounted sites) (hg : g.Accounted sites) :
    (equals f g).Accounted sites :=
  accounted_three hf (accounted_word _) hg

theorem accounted_textOperand (dialect : Dialect) (hf : f.Accounted sites) :
    (dialect.textOperand f).Accounted sites := by
  cases dialect <;> simpa [Dialect.textOperand] using hf

/-- A comparison has the errors of its sides. -/
theorem accounted_compareWith (comparator : Comparator) (hf : f.Accounted sites)
    (hg : g.Accounted sites) : (compareWith dialect comparator f g).Accounted sites := by
  unfold compareWith
  cases comparator.wildcards with
  | none => simpa [hf] using hg
  | some ends =>
      have htext := accounted_textOperand dialect hg
      obtain ⟨opened, closed⟩ := ends
      cases dialect <;> cases opened <;> cases closed <;>
        simpa [hf, wildcarded, Dialect.concatenate] using htext

/-- A value wrapper has its own errors and those of what it stands under. -/
theorem accounted_wrapperEntry {parent : Option Fragment} (hp : ∀ f ∈ parent, f.Accounted sites)
    (compared : Bool) (hf : f.Accounted sites) :
    (wrapperEntry parent compared f).Accounted sites := by
  cases parent with
  | none => exact hf
  | some left =>
      simp only [wrapperEntry]
      split
      · exact hf
      · exact accounted_crossed (hp left rfl) (accounted_append.2 ⟨accounted_tokens _, hf⟩)

/-! ## Steps of an expression -/

/-- A type that the dialect lacks is no guarded error. -/
theorem accounted_castOptional (dialect : Dialect) (type : Option CastType)
    (hf : f.Accounted sites) : (dialect.castOptional f type).Accounted sites := by
  cases type with
  | none => exact hf
  | some type =>
      simp only [Dialect.castOptional, Dialect.castTo]
      split
      · simpa using hf
      · exact accounted_halted hf rfl

/-- Keys are refused for reasons of their own. -/
theorem isGuarded_of_resolve {scope : Scope} {column : Option Cipher.Settings} {e : CompileError}
    (h : scope.resolve column = .error e) : e.isGuarded = false := by
  unfold Scope.resolve Cipher.resolve Cipher.Settings.complete at h
  generalize Cipher.merge _ = settings at h
  cases hsecret : settings.secret with
  | none =>
      simp only [hsecret] at h
      cases h
      rfl
  | some secret =>
      simp only [hsecret] at h
      cases hvector : Cipher.vectorFor (settings.mode.getD default) settings.vector with
      | error e' =>
          have he : e' = e := by simpa [hvector, bind, Except.bind] using h
          unfold Cipher.vectorFor at hvector
          split at hvector
          · split at hvector
            · cases hvector
            · cases hvector
              subst he
              rfl
          · cases hvector
      | ok vector =>
          simp only [hvector, bind, Except.bind] at h
          split at h
          · cases h
          · cases h
            rfl

/-- **Settings that do not come to a key are no guarded error.** -/
theorem accounted_cipher (scope : Scope) (direction : Direction) (column : Cipher.Settings)
    (hf : f.Accounted sites) : (scope.cipher direction column f).Accounted sites := by
  unfold Scope.cipher
  split
  · next key _ =>
      obtain ⟨mode, secret, vector, digest⟩ := key
      unfold Cipher.Key.apply
      split
      · cases vector <;> simpa [hashedSecret] using hf
      · cases direction <;> simpa using hf
      · exact accounted_halted hf rfl
  · next e he => exact accounted_halted hf (isGuarded_of_resolve he)

theorem accounted_preparation (scope : Scope) (prepare : Preparation) (hf : f.Accounted sites) :
    (prepare.apply scope f).Accounted sites := by
  obtain ⟨decrypt, encryption, cast⟩ := prepare
  refine accounted_castOptional _ cast ?_
  cases decrypt with
  | none => exact hf
  | some column => exact accounted_cipher scope .decrypt column hf

theorem accounted_intersperse (hg : g.Accounted sites) (h : ∀ f ∈ fs, f.Accounted sites) :
    ∀ f ∈ fs.intersperse g, f.Accounted sites := by
  induction fs with
  | nil => nofun
  | cons f fs ih =>
      rw [List.forall_mem_cons] at h
      cases fs with
      | nil => simpa using h.1
      | cons f' fs =>
          rw [List.intersperse_cons_cons, List.forall_mem_cons, List.forall_mem_cons]
          exact ⟨h.1, hg, ih h.2⟩

theorem accounted_concatFragment (dialect : Dialect) (separator : Option String)
    (h : ∀ f ∈ fs, f.Accounted sites) :
    (concatFragment dialect separator fs).Accounted sites := by
  unfold concatFragment
  split
  · simpa using accounted_intersperse (accounted_text _) h
  · simpa using h
  · simpa using ⟨accounted_textOperand _ (accounted_text _), h⟩
  · simpa using h

theorem accounted_rounding (rounding : Rounding) (hf : f.Accounted sites) :
    (rounding.apply dialect f).Accounted sites := by
  cases rounding <;> cases dialect <;> simpa [Rounding.apply] using hf

/-- A path into a JSON value has the errors of the value. -/
theorem accounted_jsonOptions (options : JsonOptions) (hf : f.Accounted sites) :
    (options.apply dialect f).Accounted sites := by
  obtain ⟨isArray, aggregate, extract, contains⟩ := options
  -- the test comes after the extraction, so it is settled for any fragment first
  have htested : ∀ {f : Fragment}, f.Accounted sites →
      (JsonOptions.apply dialect ⟨isArray, aggregate, none, contains⟩ f).Accounted sites := by
    intro f hf
    cases contains with
    | none => exact hf
    | some candidate =>
        cases dialect with
        | mysql => simpa [JsonOptions.apply, Dialect.jsonContains?] using hf
        | postgresql => simpa [JsonOptions.apply, Dialect.jsonContains?] using hf
        | sqlite =>
            exact accounted_halted (accounted_append.2 ⟨hf, accounted_text _⟩) rfl
  cases extract with
  | none => exact htested hf
  | some path =>
      refine htested (f := dialect.jsonExtract f (.text (dialect.jsonPath path))) ?_
      cases dialect <;> simpa [Dialect.jsonExtract] using hf

theorem accounted_collect (options : JsonOptions) (hf : f.Accounted sites) :
    (options.collect dialect f).Accounted sites := by
  unfold JsonOptions.collect
  split
  · simpa using hf
  · exact hf

theorem accounted_aggregated (kind : AggregateKind) (distinct : Bool) (hf : f.Accounted sites) :
    (call kind.function [if distinct then spaced ["DISTINCT", f] else f]).Accounted sites := by
  cases distinct <;> simpa using hf

/-! ## Dates -/

/-- A unit that the dialect lacks is no guarded error. -/
theorem accounted_shiftBy (shift : Shift) (step : Interval.Step) (hf : f.Accounted sites) :
    (shiftBy dialect shift f step).Accounted sites := by
  cases dialect with
  | mysql => simpa [shiftBy] using hf
  | postgresql => cases shift <;> simpa [shiftBy] using hf
  | sqlite =>
      simp only [shiftBy]
      split
      · simpa using hf
      · exact accounted_halted hf rfl

theorem accounted_foldl_shiftBy (dialect : Dialect) (shift : Shift) (steps : List Interval.Step)
    (hf : f.Accounted sites) : (steps.foldl (shiftBy dialect shift) f).Accounted sites := by
  induction steps generalizing f with
  | nil => exact hf
  | cons step steps ih => exact ih (accounted_shiftBy shift step hf)

/-- Patterns are refused for directives that a dialect does not have. -/
theorem isGuarded_of_native {pattern : String} {e : CompileError}
    (h : DatePattern.native pattern dialect = .error e) : e.isGuarded = false := by
  have hall : ∀ pieces, DatePattern.nativeAll dialect pieces = .error e → e.isGuarded = false := by
    intro pieces hpieces
    induction pieces with
    | nil => cases hpieces
    | cons piece pieces ih =>
        rw [DatePattern.nativeAll] at hpieces
        cases hpiece : piece.native dialect with
        | error e' =>
            obtain rfl : e' = e := by simpa [hpiece, bind, Except.bind] using hpieces
            unfold DatePattern.Piece.native at hpiece
            split at hpiece
            · split at hpiece
              · cases hpiece
              · cases hpiece
                rfl
            · cases hpiece
            · cases hpiece
        | ok text =>
            refine ih ?_
            cases hrest : DatePattern.nativeAll dialect pieces with
            | error e' => simpa [hpiece, hrest, bind, Except.bind] using hpieces
            | ok rest => simp [hpiece, hrest, bind, Except.bind, pure, Except.pure] at hpieces
  unfold DatePattern.native at h
  cases hpieces : DatePattern.nativeAll dialect (DatePattern.split pattern.toList) with
  | error e' =>
      obtain rfl : e' = e := by simpa [hpieces, bind, Except.bind] using h
      exact hall _ hpieces
  | ok text => simp [hpieces, bind, Except.bind, pure, Except.pure] at h

theorem accounted_parseDate (pattern : String) (hf : f.Accounted sites) :
    (parseDate dialect f pattern).Accounted sites := by
  unfold parseDate
  split
  · next e he => exact accounted_halted hf (isGuarded_of_native he)
  · cases dialect with
    | mysql => simpa using hf
    | postgresql => simpa using hf
    | sqlite => exact accounted_halted hf rfl

theorem accounted_formatDate (pattern : String) (hf : f.Accounted sites) :
    (formatDate dialect f pattern).Accounted sites := by
  unfold formatDate
  split
  · next e he => exact accounted_halted hf (isGuarded_of_native he)
  · cases dialect with
    | mysql => simpa using hf
    | postgresql => simpa using hf
    | sqlite =>
        have hbody : (tokens [.comma, .space] ++ f).Accounted sites :=
          accounted_append.2 ⟨accounted_tokens _, hf⟩
        exact accounted_append.2 ⟨accounted_word _, hbody⟩

/-- **A date that is changed has the errors of the date and of its patterns**, none of them guarded.
-/
theorem accounted_dateChange (change : DateChange) (hf : f.Accounted sites) :
    (change.apply dialect f).Accounted sites := by
  have hread : (change.fromPattern.elim f (parseDate dialect f)).Accounted sites := by
    cases change.fromPattern with
    | none => exact hf
    | some pattern => exact accounted_parseDate pattern hf
  have hmoved := accounted_foldl_shiftBy dialect .sub change.sub
    (accounted_foldl_shiftBy dialect .add change.add hread)
  unfold DateChange.apply
  cases change.format with
  | none => exact hmoved
  | some pattern => exact accounted_formatDate pattern hmoved

/-! ## Parts of a query -/

theorem accounted_tableFragment (table : String) (alias? : Option String) :
    (tableFragment table alias?).Accounted sites := by
  cases alias? <;> simp [tableFragment]

theorem accounted_aliased (alias? : Option String) (hf : f.Accounted sites) :
    (aliased alias? f).Accounted sites := by
  cases alias? <;> simpa [aliased] using hf

theorem accounted_orderFragments (scope : Scope) (outputs : List String)
    (keys : List (String × SortOrder)) :
    ∀ f ∈ orderFragments scope outputs keys, f.Accounted sites := by
  intro f hf
  obtain ⟨⟨key, order⟩, -, rfl⟩ := List.mem_map.1 hf
  simpa using accounted_sortKey scope outputs key

theorem accounted_limitFragment (limit offset : Option Nat) :
    (limitFragment dialect limit offset).Accounted sites := by
  cases limit <;> cases offset <;> cases dialect <;>
    simp [limitFragment, Dialect.unboundedLimit]

end Fragments

end QueryTree
