import QueryTree.Proofs.Condition.LeftSide
import QueryTree.Proofs.Condition.Order
import QueryTree.Proofs.Date.Modifier
import QueryTree.Proofs.Emission.Tree

/-!
# The order of values around dates

Where a format stands in front of the date that it is for, it is bound after the values of the date
and listed before them. However dates are nested, the list follows the text. It does so within each
copy of a date that is compared, and in the comparisons as a whole, unless one of them equates the
date to a wrapper and both bind values.

* `DateChange.aligned_apply`, `Fragment.Dressed`: changing or preparing a date keeps the order.
* `DateLayer`, `Expr.dated`: dates nested in one another.
* `Core.date_in_order`: the values of a date, of nested dates and of compared dates.
-/

namespace QueryTree

open Fragment (word tokens parens call spaced words)

/-! ## Changes of a date -/

theorem DateShift.aligned_apply (f : Fragment) (s : DateShift) :
    (DateShift.apply f s .sqlite).aligned .sqlite = f.aligned .sqlite := by
  rw [apply_sqlite]
  cases s.modifier? <;> simp [call, Fragment.commas, Fragment.text, Fragment.aligned]

theorem DateShift.aligned_foldl (f : Fragment) (shifts : List DateShift) :
    (shifts.foldl (DateShift.apply · · .sqlite) f).aligned .sqlite = f.aligned .sqlite := by
  induction shifts generalizing f with
  | nil => rfl
  | cons s shifts ih => rw [List.foldl_cons, ih, aligned_apply]

theorem aligned_parseDate (f : Fragment) (pattern : String) :
    (parseDate .sqlite f pattern).aligned .sqlite = f.aligned .sqlite := by
  rw [parseDate]
  cases DatePattern.native pattern .sqlite <;> simp [Fragment.aligned]

theorem aligned_formatDate (f : Fragment) (pattern : String) :
    (formatDate .sqlite f pattern).aligned .sqlite = f.aligned .sqlite := by
  rw [formatDate]
  cases DatePattern.native pattern .sqlite <;> simp [parens, Fragment.aligned]

/-- **Changing a date keeps the order of its values.** -/
theorem DateChange.aligned_apply (change : DateChange) (f : Fragment) :
    (change.apply .sqlite f).aligned .sqlite = f.aligned .sqlite := by
  have hformat : ∀ g, (change.format.elim g (formatDate .sqlite g)).aligned .sqlite
      = g.aligned .sqlite := by
    intro g
    cases change.format with
    | none => rfl
    | some pattern => exact aligned_formatDate g pattern
  have hparse : (change.fromPattern.elim f (parseDate .sqlite f)).aligned .sqlite
      = f.aligned .sqlite := by
    cases change.fromPattern with
    | none => rfl
    | some pattern => exact aligned_parseDate f pattern
  rw [apply_eq, hformat, DateShift.aligned_foldl, hparse]

/-- A change that is refused for nothing has a native format, if it has one, and a modifier for
each of its steps. -/
theorem DateChange.bound_of_refusals {change : DateChange} (h : change.refusals = []) :
    change.formats? = .ok change.formats
      ∧ change.shifts.mapM DateShift.modifier?
        = some (change.shifts.filterMap DateShift.modifier?) := by
  constructor
  · simp only [refusals, List.append_eq_nil_iff] at h
    unfold formats
    cases hformats : change.formats? with
    | ok formats => rfl
    | error e => simp [hformats] at h
  · have hfits := fits_of_refusals h
    generalize change.shifts = shifts at hfits
    induction shifts with
    | nil => rfl
    | cons s shifts ih =>
        rw [List.forall_mem_cons, ← s.isSome_modifier?] at hfits
        obtain ⟨modifier, hmodifier⟩ := Option.isSome_iff_exists.1 hfits.1
        simp [hmodifier, ih hfits.2]

/-! ## Operands -/

/-- A fragment has words and errors added to it, but no values. -/
structure Fragment.Dressed (f g : Fragment) : Prop where
  hurdles : g.hurdles = [] → f.hurdles = []
  stored : g.stored .sqlite = f.stored .sqlite
  aligned : g.aligned .sqlite = f.aligned .sqlite

namespace Fragment.Dressed

variable {f g k : Fragment}

theorem refl (f : Fragment) : Dressed f f :=
  ⟨id, rfl, rfl⟩

theorem trans (hf : Dressed f g) (hg : Dressed g k) : Dressed f k :=
  ⟨hf.hurdles ∘ hg.hurdles, hg.stored.trans hf.stored, hg.aligned.trans hf.aligned⟩

theorem halted (f : Fragment) (e : CompileError) : Dressed f (f ++ .fail e) :=
  ⟨by simp [Fragment.hurdles], by simp [Fragment.stored], by simp [Fragment.aligned]⟩

theorem cast (f : Fragment) (type : List String) : Dressed f (f.cast type) :=
  ⟨by simp [Fragment.cast, spaced], by simp [Fragment.cast, spaced],
    by simp [Fragment.cast, spaced]⟩

theorem castOptional (f : Fragment) (type : Option CastType) :
    Dressed f (Dialect.sqlite.castOptional f type) := by
  cases type with
  | none => exact refl f
  | some type =>
      rw [Dialect.castOptional, Dialect.castTo]
      split
      · exact cast f _
      · exact halted f _

theorem decrypted {scope : Scope} (hd : scope.dialect = .sqlite) (column : Cipher.Settings)
    (f : Fragment) : Dressed f (scope.cipher .decrypt column f) := by
  rw [Scope.cipher]
  split
  · rw [hd]
    exact halted f _
  · exact halted f _

/-- Where there is no cipher, a prepared value binds what the value binds. -/
theorem prepared {scope : Scope} (hd : scope.dialect = .sqlite) (prepare : Preparation)
    (f : Fragment) : Dressed f (prepare.apply scope f) := by
  rw [Preparation.apply, hd]
  cases prepare.decrypt with
  | none => exact castOptional f _
  | some column => exact (decrypted hd column f).trans (castOptional _ _)

end Fragment.Dressed

/-! ## One date -/

/-- What is bound for a date whose operand and changes are not refused. -/
structure DateChange.Bound (change : DateChange) (operand : Fragment)
    (formats modifiers : List String) : Prop where
  formats_eq : change.formats? = .ok formats
  modifiers_eq : change.shifts.mapM DateShift.modifier? = some modifiers
  hurdles_eq : operand.hurdles = []
  stored_eq : (change.apply .sqlite operand).stored .sqlite
    = formats.map Stored.text ++ operand.stored .sqlite ++ modifiers.map Stored.text

/-- **A date that is not refused binds its format, its operand and its modifiers.** -/
theorem DateChange.bound {change : DateChange} {operand : Fragment}
    (h : (change.apply .sqlite operand).hurdles = []) :
    ∃ formats modifiers, change.Bound operand formats modifiers := by
  rw [hurdles_apply, List.append_eq_nil_iff, List.map_eq_nil_iff] at h
  obtain ⟨hformats, hmodifiers⟩ := bound_of_refusals h.2
  exact ⟨_, _, hformats, hmodifiers, h.1, change.stored_apply operand⟩

/-! ## Dates nested in one another -/

/-- A date wrapper around a value. -/
structure DateLayer where
  prepare : Preparation := {}
  change : DateChange := {}
  alias? : Option String := none
deriving DecidableEq, Repr

/-- A value in date wrappers, the outermost first. -/
def Expr.dated (e : Expr) : List DateLayer → Expr
  | [] => e
  | layer :: layers =>
    .wrapper ⟨.date (e.dated layers) layer.prepare layer.change, none, layer.alias?⟩

/-- The scope inside date wrappers. -/
def Scope.within (scope : Scope) (layers : List DateLayer) : Scope :=
  layers.foldl (fun inner layer => inner.withCall layer.prepare.encryption) scope

theorem Expr.fragment_dated_cons (e : Expr) (scope : Scope) (layer : DateLayer)
    (layers : List DateLayer) :
    (e.dated (layer :: layers)).fragment .column scope
      = layer.change.apply scope.dialect (dateOperand scope (e.dated layers) layer.prepare) := by
  exact Core.fragment_date ..

/-- **Nested dates list their formats from the outside in, then what the innermost value binds, then
their modifiers from the inside out.** -/
theorem Expr.bound_dated {scope : Scope} (hd : scope.dialect = .sqlite) (e : Expr)
    (layers : List DateLayer) (h : ((e.dated layers).fragment .column scope).hurdles = []) :
    ∃ formats modifiers : List (List String),
      layers.mapM (·.change.formats?) = .ok formats
        ∧ layers.mapM (·.change.shifts.mapM DateShift.modifier?) = some modifiers
        ∧ (e.fragment .column (scope.within layers)).hurdles = []
        ∧ ((e.dated layers).fragment .column scope).stored .sqlite
          = formats.flatten.map Stored.text
            ++ (e.fragment .column (scope.within layers)).stored .sqlite
            ++ modifiers.reverse.flatten.map Stored.text
        ∧ ((e.dated layers).fragment .column scope).aligned .sqlite
          = (e.fragment .column (scope.within layers)).aligned .sqlite := by
  induction layers generalizing scope with
  | nil => exact ⟨[], [], rfl, rfl, h, by simp [dated, Scope.within], rfl⟩
  | cons layer layers ih =>
      rw [fragment_dated_cons, hd] at h ⊢
      obtain ⟨formats, modifiers, hbound⟩ := DateChange.bound h
      have hinner : (scope.withCall layer.prepare.encryption).dialect = .sqlite :=
        (Scope.dialect_withCall _ _).trans hd
      have hdressed := Fragment.Dressed.prepared hinner layer.prepare
        ((e.dated layers).fragment .column (scope.withCall layer.prepare.encryption))
      obtain ⟨rest, later, hformats, hmodifiers, hhurdles, hstored, haligned⟩ :=
        ih hinner (hdressed.hurdles hbound.hurdles_eq)
      refine ⟨formats :: rest, modifiers :: later, ?_, ?_, hhurdles, ?_, ?_⟩
      · rw [List.mapM_cons, hbound.formats_eq, hformats]
        rfl
      · rw [List.mapM_cons, hbound.modifiers_eq, hmodifiers]
        rfl
      · rw [hbound.stored_eq, dateOperand, hdressed.stored, hstored]
        simp [Scope.within]
      · rw [DateChange.aligned_apply, dateOperand, hdressed.aligned, haligned]
        rfl

/-! ## The order of values -/

/-- **Dates keep the order of their values.** Where a format stands in front of its date:

* a date that is written binds its format, then what its operand binds alone, then a modifier for
  each step, and is in order exactly if its operand is;
* dates nested in one another to any depth bind their formats from the outside in, then what the
  innermost value binds alone, then their modifiers from the inside out, and are in order exactly if
  the innermost value is;
* a date whose operand is in order is written in order for each of its comparisons; the comparisons
  together are in order exactly if what the date is compared with is, and no wrapper that binds
  values is equated to a date that binds values. -/
theorem Core.date_in_order {scope : Scope} (hd : scope.dialect = .sqlite) :
    (∀ (value : Expr) (prepare : Preparation) (change : DateChange) (b b' : Bindings)
        (text : String),
      ((Core.date value prepare change).fragment scope).sql .sqlite b = (.ok text, b') →
      ∃ formats modifiers us alone,
        change.formats? = .ok formats
          ∧ change.shifts.mapM DateShift.modifier? = some modifiers
          ∧ (dateOperand scope value prepare).run .sqlite .empty = (.ok us, alone)
          ∧ b'.values = b.values ++ formats.map Value.text ++ alone.values
            ++ modifiers.map Value.text
          ∧ (((Core.date value prepare change).fragment scope).InOrder .sqlite b
            ↔ (dateOperand scope value prepare).InOrder .sqlite b))
    ∧ (∀ (e : Expr) (layers : List DateLayer) (b b' : Bindings) (text : String),
      ((e.dated layers).fragment .column scope).sql .sqlite b = (.ok text, b') →
      ∃ (formats modifiers : List (List String)) (us : List Lexeme) (alone : Bindings),
        layers.mapM (·.change.formats?) = .ok formats
          ∧ layers.mapM (·.change.shifts.mapM DateShift.modifier?) = some modifiers
          ∧ (e.fragment .column (scope.within layers)).run .sqlite .empty = (.ok us, alone)
          ∧ b'.values = b.values ++ formats.flatten.map Value.text ++ alone.values
            ++ modifiers.reverse.flatten.map Value.text
          ∧ (((e.dated layers).fragment .column scope).InOrder .sqlite b
            ↔ (e.fragment .column (scope.within layers)).InOrder .sqlite b))
    ∧ ∀ (value : Expr) (prepare : Preparation) (change : DateChange) (entries : List Entry)
        (alias? : Option String) (b b' : Bindings) (text : String),
      let date := (Core.date value prepare change).fragment scope
      let compared := Wrapper.fragment scope ⟨.date value prepare change, some entries, alias?⟩
      compared.sql .sqlite b = (.ok text, b') →
      (dateOperand scope value prepare).InOrder .sqlite b →
      WritesCopies .sqlite compared (comparisonsOf entries)
          (fun marks stored => date.TracedAs .sqlite marks stored ∧ placed marks = stored) b text b'
        ∧ (compared.InOrder .sqlite b
          ↔ (∀ f ∈ operandsOf .and scope entries, f.InOrder .sqlite b)
            ∧ (date.binds .sqlite = true →
              ∀ f ∈ equatedOf scope entries, f.binds .sqlite = false)) := by
  have hvalue : Stored.value ∘ Stored.text = Value.text := rfl
  refine ⟨?_, ?_, ?_⟩
  · intro value prepare change b b' text hsql
    have hhurdles := ((Core.date value prepare change).phrase_fragment hd).plain.hurdles_of_sql
      (by decide) hsql
    have hvalues := Fragment.values_of_sql hsql
    rw [Fragment.inOrder_iff hhurdles]
    rw [fragment_date, hd] at hhurdles hvalues ⊢
    obtain ⟨formats, modifiers, hbound⟩ := DateChange.bound hhurdles
    refine ⟨formats, modifiers, _, _, hbound.formats_eq, hbound.modifiers_eq,
      Fragment.run_of_hurdles hbound.hurdles_eq .sqlite .empty, ?_, ?_⟩
    · rw [hvalues, hbound.stored_eq]
      simp [Fragment.extend, Bindings.empty, hvalue]
    · rw [DateChange.aligned_apply, Fragment.inOrder_iff hbound.hurdles_eq]
  · intro e layers b b' text hsql
    have hhurdles := ((e.dated layers).phrase_fragment hd .column).plain.hurdles_of_sql
      (by decide) hsql
    have hvalues := Fragment.values_of_sql hsql
    obtain ⟨formats, modifiers, hformats, hmodifiers, hinner, hstored, haligned⟩ :=
      e.bound_dated hd layers hhurdles
    refine ⟨formats, modifiers, _, _, hformats, hmodifiers,
      Fragment.run_of_hurdles hinner .sqlite .empty, ?_, ?_⟩
    · rw [hvalues, hstored]
      simp [Fragment.extend, Bindings.empty, hvalue]
    · rw [Fragment.inOrder_iff hhurdles, Fragment.inOrder_iff hinner, haligned]
  · rintro value prepare change entries alias? b b' text date compared hsql
      ⟨marks, stored, mode, htrace, hplaced⟩
    have hhurdles := ((Wrapper.mk (.date value prepare change) (some entries)
      alias?).phrase_fragment hd).plain.hurdles_of_sql (by decide) hsql
    have hdate : date.aligned .sqlite = true := by
      rw [show date = _ from fragment_date .., hd, DateChange.aligned_apply]
      exact htrace.placed_eq_stored_iff.1 hplaced
    constructor
    · refine WritesCopies.imp (fun marks stored hcopy => ⟨hcopy, ?_⟩)
        ((repeats_group .and entries).writesCopies hsql)
      obtain ⟨_, _, _, hcopy⟩ := hcopy
      exact hcopy.placed_eq_stored_iff.2 hdate
    · have horder := inOrder_compared (hd ▸ hdate) .and entries b hhurdles
      rwa [hd] at horder

/-- A moment, a day later, as a year. -/
def tomorrowsYear : Core :=
  .date (.number (.int 2460000)) {} { add := [⟨1, .day⟩], format := some "YYYY" }

/-- The month of a year, a day later than the moment. -/
def tomorrowsMonth : Expr :=
  (Expr.number (.int 2460000)).dated
    [{ change := { format := some "MM" } },
      { change := { add := [⟨1, .day⟩], format := some "YYYY" } }]

/-- The year of a column. -/
def year : Core :=
  .date (.text "a") {} { format := some "YYYY" }

/-- Between two years. -/
def betweenYears : Condition :=
  [.compare .gt (.number (.int 1999)), .compare .lt (.number (.int 2020))]

/-- Equal to one more than a column. -/
def equalsSum : Condition :=
  [.wrapper ⟨.number (.text "b") {} [.arithmetic .add (.number (.int 1))], none, none⟩]

theorem native_year : DatePattern.native "YYYY" .sqlite = .ok "%Y" := by cbv

theorem native_month : DatePattern.native "MM" .sqlite = .ok "%m" := by cbv

/-- The format stands in front of the date. -/
theorem formatDate_sqlite {pattern native : String}
    (h : DatePattern.native pattern .sqlite = .ok native) (f : Fragment) :
    formatDate .sqlite f pattern
      = word "STRFTIME" ++ parens (.led (.text native) (tokens [.comma, .space] ++ f)) := by
  rw [formatDate, h]

theorem fragment_year :
    year.fragment (Scope.outermost .sqlite none)
      = word "STRFTIME" ++ parens (.led (.text "%Y") (tokens [.comma, .space] ++ .path "a")) :=
  formatDate_sqlite native_year (.path "a")

theorem fragment_tomorrowsYear :
    tomorrowsYear.fragment (Scope.outermost .sqlite none)
      = word "STRFTIME" ++ parens (.led (.text "%Y") (tokens [.comma, .space]
        ++ shiftBy .sqlite .add (.value (.int 2460000)) ⟨1, .day⟩)) :=
  formatDate_sqlite native_year _

theorem sql_tomorrowsYear :
    (tomorrowsYear.fragment (Scope.outermost .sqlite none)).sql .sqlite .empty
      = (.ok "STRFTIME(?, DATETIME(?, ?))",
        ⟨3, [.text "%Y", .int 2460000, .text "+1 days"], none⟩) := by
  rw [fragment_tomorrowsYear]
  rfl

theorem sql_tomorrowsMonth :
    (tomorrowsMonth.fragment .column (Scope.outermost .sqlite none)).sql .sqlite .empty
      = (.ok "STRFTIME(?, STRFTIME(?, DATETIME(?, ?)))",
        ⟨4, [.text "%m", .text "%Y", .int 2460000, .text "+1 days"], none⟩) := by
  have hfragment : tomorrowsMonth.fragment .column (Scope.outermost .sqlite none)
      = formatDate .sqlite (tomorrowsYear.fragment (Scope.outermost .sqlite none)) "MM" := rfl
  rw [hfragment, formatDate_sqlite native_month, fragment_tomorrowsYear]
  rfl

theorem sql_betweenYears :
    (Wrapper.fragment (Scope.outermost .sqlite none) ⟨year, some betweenYears, none⟩).sql .sqlite
        .empty
      = (.ok "(STRFTIME(?, \"a\") > ? AND STRFTIME(?, \"a\") < ?)",
        ⟨4, [.text "%Y", .int 1999, .text "%Y", .int 2020], none⟩) := by
  rw [Wrapper.fragment, fragment_year]
  rfl

theorem sql_equalsSum :
    (Wrapper.fragment (Scope.outermost .sqlite none) ⟨year, some equalsSum, none⟩).sql .sqlite
        .empty
      = (.ok "STRFTIME(?, \"a\") = (\"b\" + ?)", ⟨2, [.int 1, .text "%Y"], none⟩) := by
  rw [Wrapper.fragment, fragment_year]
  rfl

/-- All formats stand in front of the moment. Compared with two numbers, a year is in order, and
compared with a sum it is not. -/
theorem Core.date_in_order_nested :
    let scope := Scope.outermost .sqlite none
    scope.dialect = .sqlite
      ∧ (∃ b', (tomorrowsYear.fragment scope).sql .sqlite .empty
          = (.ok "STRFTIME(?, DATETIME(?, ?))", b')
        ∧ b'.values = [.text "%Y", .int 2460000, .text "+1 days"]
        ∧ (tomorrowsYear.fragment scope).InOrder .sqlite .empty)
      ∧ (∃ b', (tomorrowsMonth.fragment .column scope).sql .sqlite .empty
          = (.ok "STRFTIME(?, STRFTIME(?, DATETIME(?, ?)))", b')
        ∧ b'.values = [.text "%m", .text "%Y", .int 2460000, .text "+1 days"]
        ∧ (tomorrowsMonth.fragment .column scope).InOrder .sqlite .empty)
      ∧ (∃ b', (Wrapper.fragment scope ⟨year, some betweenYears, none⟩).sql .sqlite .empty
          = (.ok "(STRFTIME(?, \"a\") > ? AND STRFTIME(?, \"a\") < ?)", b')
        ∧ b'.values = [.text "%Y", .int 1999, .text "%Y", .int 2020]
        ∧ (Wrapper.fragment scope ⟨year, some betweenYears, none⟩).InOrder .sqlite .empty)
      ∧ ∃ b', (Wrapper.fragment scope ⟨year, some equalsSum, none⟩).sql .sqlite .empty
          = (.ok "STRFTIME(?, \"a\") = (\"b\" + ?)", b')
        ∧ b'.values = [.int 1, .text "%Y"]
        ∧ ¬ (Wrapper.fragment scope ⟨year, some equalsSum, none⟩).InOrder .sqlite .empty := by
  intro scope
  obtain ⟨hsingle, hnested, hcompared⟩ := Core.date_in_order (show scope.dialect = .sqlite from rfl)
  have hcolumn : (dateOperand scope (.text "a") {}).InOrder .sqlite .empty :=
    ⟨_, _, _, .path "a" _ _ rfl, rfl⟩
  have hnumber : ∀ v, (Fragment.value v).InOrder .sqlite .empty :=
    fun v => ⟨_, _, _, .value v _ _, rfl⟩
  refine ⟨rfl, ?_, ?_, ?_, ?_⟩
  · obtain ⟨_, _, _, _, -, -, -, -, horder⟩ := hsingle _ _ _ _ _ _ sql_tomorrowsYear
    exact ⟨_, sql_tomorrowsYear, rfl, horder.2 (hnumber _)⟩
  · obtain ⟨_, _, _, _, -, -, -, -, horder⟩ := hnested _ _ _ _ _ sql_tomorrowsMonth
    exact ⟨_, sql_tomorrowsMonth, rfl, horder.2 (hnumber _)⟩
  · obtain ⟨-, horder⟩ := hcompared _ _ _ betweenYears none _ _ _ sql_betweenYears hcolumn
    have hequated : equatedOf scope betweenYears = [] := by
      simp [betweenYears, equatedOf, Entry.equated]
    refine ⟨_, sql_betweenYears, rfl, horder.2 ⟨?_, fun _ => by simp [hequated]⟩⟩
    exact List.forall_mem_cons.2 ⟨hnumber _, List.forall_mem_singleton.2 (hnumber _)⟩
  · obtain ⟨-, horder⟩ := hcompared _ _ _ equalsSum none _ _ _ sql_equalsSum hcolumn
    have hyear : (year.fragment scope).binds .sqlite = true := by
      rw [fragment_year]
      rfl
    refine ⟨_, sql_equalsSum, rfl, fun hcrossed => ?_⟩
    cases (horder.1 hcrossed).2 hyear _ (List.mem_singleton.2 rfl)

end QueryTree
