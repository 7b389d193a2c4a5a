import QueryTree.Proofs.Binding.Content
import QueryTree.Proofs.Binding.Written
import QueryTree.Proofs.Pattern.Munch
import QueryTree.Sql.Query

/-!
# Dates moved by modifiers

Where there are no intervals, a date is moved by modifiers: texts such as `+7 days` that are bound
as values. A modifier says the exact amount of its step, or the step is refused.

* `DateShift`, `DateChange.shifts`: the steps of a date in the order in which they are applied.
* `DateShift.exact`, `DateShift.text`: the exact amount of a step, and its modifier.
* `DateChange.hurdles_apply`, `DateChange.stored_apply`: what the changes of a date are refused for,
  and which values they bind.
* `Core.date_modifiers`: steps are bound exactly, or the first one out of range is refused.
-/

namespace QueryTree

open Fragment (word tokens parens call)

/-! ## Steps -/

/-- A step and the way that it moves a date. -/
structure DateShift where
  way : Shift
  step : Interval.Step
deriving DecidableEq, Repr

/-- The steps of a date, in the order in which they are applied. -/
def DateChange.shifts (change : DateChange) : List DateShift :=
  change.add.map (DateShift.mk .add) ++ change.sub.map (DateShift.mk .sub)

/-- How many of the unit of its modifier make up a unit. -/
def Interval.Unit.factor : Interval.Unit → Int
  | .week => 7
  | .quarter => 3
  | _ => 1

/-- The unit of its modifier. -/
def Interval.Unit.modifierWord : Interval.Unit → String
  | .microsecond | .second => "seconds"
  | .minute => "minutes"
  | .hour => "hours"
  | .day | .week => "days"
  | .month | .quarter => "months"
  | .year => "years"

/-- A decimal with its sign, also if it is not negative. -/
def Decimal.explicit (n : Int) : String :=
  (if n < 0 then "-" else "+") ++ Nat.repr n.natAbs

namespace DateShift

/-- The exact amount of a step in the unit of its modifier, negative if it goes back in time. -/
def exact (s : DateShift) : Int :=
  match s.way with
  | .add => s.step.amount * s.step.unit.factor
  | .sub => -(s.step.amount * s.step.unit.factor)

/-- The exact amount and the unit. -/
def text (s : DateShift) : String :=
  Decimal.explicit s.exact ++ " " ++ s.step.unit.modifierWord

/-- Whether the exact amount fits 64 bits. -/
def fits (s : DateShift) : Bool :=
  Decimal.isInt64 s.exact

/-- What a step that does not fit is refused for. -/
def refusal (s : DateShift) : CompileError :=
  match s.way with
  | .add => .invalid "date.add" (.amountOutOfRange s.step.amount)
  | .sub => .invalid "date.sub" (.amountOutOfRange s.step.amount)

theorem exists_refusal_eq (s : DateShift) : ∃ field fault, s.refusal = .invalid field fault := by
  rcases s with ⟨_ | _, step⟩ <;> exact ⟨_, _, rfl⟩

/-- The modifier that is bound for a step. -/
def modifier? (s : DateShift) : Option String :=
  Interval.modifier? (s.way.signed s.step.amount) s.step.unit

theorem modifier_unit (unit : Interval.Unit) :
    unit.modifier = (unit.factor, unit.modifierWord) := by
  cases unit <;> rfl

theorem signedText_eq (n : Int) : Decimal.signedText n = Decimal.explicit n := by
  cases n with
  | ofNat n =>
      simp [Decimal.signedText, Decimal.explicit, Decimal.natText, Decimal.natDigits, Nat.repr]
  | negSucc n =>
      simp [Decimal.signedText, Decimal.explicit, Decimal.natText, Decimal.natDigits, Nat.repr,
        Int.negSucc_lt_zero]

theorem signed_mul_factor (s : DateShift) :
    s.way.signed s.step.amount * s.step.unit.factor = s.exact := by
  cases hway : s.way with
  | add => simp only [exact, Shift.signed, hway]
  | sub => simp only [exact, Shift.signed, hway, Int.neg_mul]

theorem isSome_modifier? (s : DateShift) : s.modifier?.isSome = s.fits := by
  simp only [modifier?, Interval.modifier?, modifier_unit, signed_mul_factor, fits]
  cases Decimal.isInt64 s.exact <;> rfl

/-- **The modifier of a step says its exact amount, or there is none.** -/
theorem modifier?_eq (s : DateShift) (hunit : s.step.unit ≠ .microsecond) :
    s.modifier? = if s.fits then some s.text else none := by
  cases hfits : s.fits <;>
    simp_all [modifier?, Interval.modifier?, modifier_unit, signed_mul_factor, fits, text,
      signedText_eq]

end DateShift

/-! ## Dates moved -/

namespace DateShift

variable (f : Fragment) (s : DateShift) (shifts : List DateShift)

/-- A date moved by a step. -/
def apply (dialect : Dialect) : Fragment :=
  shiftBy dialect s.way f s.step

theorem apply_sqlite : apply f s .sqlite = match s.modifier? with
    | some modifier => call "DATETIME" [f, .text modifier]
    | none => f ++ .fail s.refusal := by
  obtain ⟨way, step⟩ := s
  cases way <;> rfl

theorem hurdles_apply : (apply f s .sqlite).hurdles
    = f.hurdles ++ if s.fits then [] else [.error s.refusal] := by
  rw [apply_sqlite, ← isSome_modifier?]
  cases s.modifier? with
  | none => rfl
  | some modifier => simp [call, Fragment.commas, Fragment.text, Fragment.hurdles]

theorem stored_apply : (apply f s .sqlite).stored .sqlite
    = f.stored .sqlite ++ s.modifier?.toList.map Stored.text := by
  rw [apply_sqlite]
  cases s.modifier? with
  | none => rfl
  | some modifier => simp [call, Fragment.commas, Fragment.text, Fragment.stored, Stored.text]

theorem hurdles_foldl : (shifts.foldl (apply · · .sqlite) f).hurdles
    = f.hurdles ++ (shifts.filter (!·.fits)).map fun s => .error s.refusal := by
  induction shifts generalizing f with
  | nil => simp
  | cons s shifts ih =>
      rw [List.foldl_cons, ih, hurdles_apply, List.filter_cons]
      cases s.fits <;> simp

theorem stored_foldl : (shifts.foldl (apply · · .sqlite) f).stored .sqlite
    = f.stored .sqlite ++ (shifts.filterMap modifier?).map Stored.text := by
  induction shifts generalizing f with
  | nil => simp
  | cons s shifts ih =>
      rw [List.foldl_cons, ih, stored_apply, List.filterMap_cons]
      cases s.modifier? <;> simp

end DateShift

/-! ## Changes of a date -/

/-- What reading a date from a text is refused for. -/
def parseRefusal (pattern : String) : CompileError :=
  match DatePattern.native pattern .sqlite with
  | .ok _ => .unsupported "fromPattern" .sqlite
  | .error e => e

namespace DateChange

variable (change : DateChange) (f : Fragment)

/-- The formats that a date is written by, one or none. -/
def formats? : Except CompileError (List String) :=
  change.format.toList.mapM (DatePattern.native · .sqlite)

/-- The formats that are bound. -/
def formats : List String :=
  match change.formats? with
  | .ok formats => formats
  | .error _ => []

/-- What a change is refused for, from the first to the last. -/
def refusals : List CompileError :=
  change.fromPattern.toList.map parseRefusal
    ++ (change.shifts.filter (!·.fits)).map DateShift.refusal
    ++ match change.formats? with
      | .ok _ => []
      | .error e => [e]

theorem apply_eq (dialect : Dialect) :
    change.apply dialect f =
      let shifted := change.shifts.foldl (DateShift.apply · · dialect)
        (change.fromPattern.elim f (parseDate dialect f))
      change.format.elim shifted (formatDate dialect shifted) := by
  simp only [DateChange.apply, shifts, List.foldl_append, List.foldl_map]
  rfl

theorem hurdles_parse : (change.fromPattern.elim f (parseDate .sqlite f)).hurdles
    = f.hurdles ++ (change.fromPattern.toList.map parseRefusal).map Hurdle.error := by
  cases change.fromPattern with
  | none => simp
  | some pattern =>
      simp only [Option.elim_some, parseDate, parseRefusal, Option.toList_some, List.map_cons]
      cases DatePattern.native pattern .sqlite <;> rfl

theorem stored_parse : (change.fromPattern.elim f (parseDate .sqlite f)).stored .sqlite
    = f.stored .sqlite := by
  cases change.fromPattern with
  | none => rfl
  | some pattern =>
      simp only [Option.elim_some, parseDate]
      cases DatePattern.native pattern .sqlite <;> simp [Fragment.stored]

theorem hurdles_format : (change.format.elim f (formatDate .sqlite f)).hurdles
    = f.hurdles ++ (match change.formats? with
      | .ok _ => []
      | .error e => [e]).map Hurdle.error := by
  unfold formats?
  cases change.format with
  | none => simp [pure, Except.pure]
  | some pattern =>
      simp only [Option.elim_some, formatDate, Option.toList_some, List.mapM_cons, List.mapM_nil]
      cases DatePattern.native pattern .sqlite <;>
        simp [Fragment.hurdles, bind, Except.bind, pure, Except.pure]

theorem stored_format : (change.format.elim f (formatDate .sqlite f)).stored .sqlite
    = change.formats.map Stored.text ++ f.stored .sqlite := by
  unfold formats formats?
  cases change.format with
  | none => simp [pure, Except.pure]
  | some pattern =>
      simp only [Option.elim_some, formatDate, Option.toList_some, List.mapM_cons, List.mapM_nil]
      cases DatePattern.native pattern .sqlite <;>
        simp [Fragment.stored, Stored.text, bind, Except.bind, pure, Except.pure]

/-- **The changes of a date are refused for what they cannot do, in their order.** -/
theorem hurdles_apply : (change.apply .sqlite f).hurdles
    = f.hurdles ++ change.refusals.map Hurdle.error := by
  rw [apply_eq]
  simp only [hurdles_format, DateShift.hurdles_foldl, hurdles_parse, refusals, List.map_append,
    List.map_map, List.append_assoc]
  rfl

/-- **The format is listed in front of the values of the date, the modifiers after them.** -/
theorem stored_apply : (change.apply .sqlite f).stored .sqlite
    = change.formats.map Stored.text ++ f.stored .sqlite
      ++ (change.shifts.filterMap DateShift.modifier?).map Stored.text := by
  rw [apply_eq]
  simp only [stored_format, DateShift.stored_foldl, stored_parse, List.append_assoc]

/-- Without a pattern to read it by, a change is refused for its steps before its format. -/
theorem refusals_eq (hfrom : change.fromPattern = none) :
    change.refusals = (change.shifts.filter (!·.fits)).map DateShift.refusal
      ++ match change.formats? with
        | .ok _ => []
        | .error e => [e] := by
  rw [refusals, hfrom]
  rfl

theorem formats?_error {e : CompileError} (h : change.formats? = .error e) :
    ∃ feature, e = .unsupported feature .sqlite := by
  unfold formats? at h
  cases hformat : change.format with
  | none => simp [hformat, pure, Except.pure] at h
  | some pattern =>
      simp only [hformat, Option.toList_some, List.mapM_cons, List.mapM_nil,
        DatePattern.native] at h
      rcases DatePattern.nativeAll_eq .sqlite (DatePattern.split pattern.toList) with
        ⟨forms, -, -, hnative⟩ | ⟨d, -, -, hnative⟩
      · simp [hnative, bind, Except.bind, pure, Except.pure] at h
      · rw [hnative] at h
        cases h
        exact ⟨_, rfl⟩

end DateChange

/-! ## Binding -/

/-- Errors after other hurdles: the first one is met. -/
theorem Hurdle.passAll_errors (mode : Option Cipher.Mode) (hurdles : List Hurdle)
    (errors : List CompileError) :
    Hurdle.passAll mode (hurdles ++ errors.map Hurdle.error)
      = (Hurdle.passAll mode hurdles).bind fun mode =>
        match errors with
        | [] => .ok mode
        | e :: _ => .error e := by
  rw [Hurdle.passAll_append]
  cases errors with
  | nil => rfl
  | cons e errors =>
      simp only [List.map_cons, Hurdle.passAll_cons]
      rfl

/-- What a date wrapper is about, before its changes. -/
def dateOperand (scope : Scope) (value : Expr) (prepare : Preparation) : Fragment :=
  let inner := scope.withCall prepare.encryption
  prepare.apply inner (value.fragment .column inner)

theorem Core.fragment_date (scope : Scope) (value : Expr) (prepare : Preparation)
    (change : DateChange) : (Core.date value prepare change).fragment scope
      = change.apply scope.dialect (dateOperand scope value prepare) := by
  rw [Core.fragment]
  rfl

namespace Core

variable {scope : Scope} {value : Expr} {prepare : Preparation} {b b₁ : Bindings}
  {us : List Lexeme}

/-- A date wrapper is refused for the first thing that its changes are refused for. -/
theorem sql_date_error_iff (hd : scope.dialect = .sqlite)
    (hoperand : (dateOperand scope value prepare).run .sqlite b = (.ok us, b₁))
    {change : DateChange} {e : CompileError} :
    (((Core.date value prepare change).fragment scope).sql .sqlite b).1 = .error e
      ↔ change.refusals.head? = some e := by
  obtain ⟨mode, hpass, -⟩ := Fragment.run_ok_iff.1 hoperand
  rw [Fragment.sql_error_iff, Fragment.run_error_iff, fragment_date, hd,
    DateChange.hurdles_apply, Hurdle.passAll_errors, hpass]
  cases change.refusals <;> simp [Except.bind]

/-- A date wrapper that is not refused binds its format, its operand and its modifiers. -/
theorem sql_date_ok (hd : scope.dialect = .sqlite)
    (hoperand : (dateOperand scope value prepare).run .sqlite b = (.ok us, b₁))
    {change : DateChange} (h : change.refusals = []) :
    ∃ text b' own, ((Core.date value prepare change).fragment scope).sql .sqlite b = (.ok text, b')
      ∧ b₁.values = b.values ++ own
      ∧ b'.values = b.values ++ change.formats.map Value.text ++ own
        ++ (change.shifts.filterMap DateShift.modifier?).map Value.text := by
  obtain ⟨mode, hpass, -, rfl⟩ := Fragment.run_ok_iff.1 hoperand
  have hwhole : Hurdle.passAll b.mode ((Core.date value prepare change).fragment scope).hurdles
      = .ok mode := by
    rw [fragment_date, hd, DateChange.hurdles_apply, Hurdle.passAll_errors, hpass, h]
    rfl
  refine ⟨_, _, _, Fragment.sql_ok.2 ⟨_, Fragment.run_ok_iff.2 ⟨mode, hwhole, rfl, rfl⟩, rfl⟩, rfl,
    ?_⟩
  rw [Fragment.extend, fragment_date, hd, DateChange.stored_apply]
  simp [Stored.text, Function.comp_def]

end Core

theorem DateShift.filterMap_modifier? {shifts : List DateShift}
    (h : ∀ s ∈ shifts, s.fits = true ∧ s.step.unit ≠ .microsecond) :
    shifts.filterMap DateShift.modifier? = shifts.map DateShift.text := by
  induction shifts with
  | nil => rfl
  | cons s shifts ih =>
      rw [List.forall_mem_cons] at h
      simp [s.modifier?_eq h.1.2, h.1.1, ih h.2]

namespace DateChange

variable {change : DateChange} {f : Fragment} {b b' : Bindings} {text : String}

/-- A date that is written is refused for nothing. -/
theorem refusals_of_sql (h : (change.apply .sqlite f).sql .sqlite b = (.ok text, b')) :
    change.refusals = [] := by
  obtain ⟨ts, hrun, -⟩ := Fragment.sql_ok.1 h
  obtain ⟨mode, hpass, -⟩ := Fragment.run_ok_iff.1 hrun
  rw [hurdles_apply] at hpass
  refine List.eq_nil_iff_forall_not_mem.2 fun e he => ?_
  refine Hurdle.not_mem_of_passAll hpass e (List.mem_append_right _ ?_)
  exact List.mem_map_of_mem he

theorem fits_of_refusals (h : change.refusals = []) : ∀ s ∈ change.shifts, s.fits = true := by
  intro s hs
  have hsteps : change.shifts.filter (!·.fits) = [] := by
    simp only [refusals, List.append_eq_nil_iff, List.map_eq_nil_iff] at h
    exact h.1.2
  simpa using List.filter_eq_nil_iff.1 hsteps s hs

/-- The last step forward may as well be the first step back, by the opposite amount. -/
theorem apply_opposite (adds subs : List Interval.Step) (n : Int) (unit : Interval.Unit)
    (format : Option String) :
    ((DateChange.mk none (adds ++ [⟨n, unit⟩]) subs format).apply .sqlite f).sql .sqlite b
        = (.ok text, b') ↔
      ((DateChange.mk none adds (⟨-n, unit⟩ :: subs) format).apply .sqlite f).sql .sqlite b
        = (.ok text, b') := by
  have hmodifier : (DateShift.mk .sub ⟨-n, unit⟩).modifier?
      = (DateShift.mk .add ⟨n, unit⟩).modifier? := by
    simp [DateShift.modifier?, Shift.signed]
  cases hadd : (DateShift.mk .add ⟨n, unit⟩).modifier? with
  | some modifier =>
      -- the two steps write the same
      have happly : ∀ g, DateShift.apply g ⟨.add, ⟨n, unit⟩⟩ .sqlite
          = DateShift.apply g ⟨.sub, ⟨-n, unit⟩⟩ .sqlite := by
        intro g
        rw [DateShift.apply_sqlite, DateShift.apply_sqlite, hmodifier, hadd]
      rw [apply_eq, apply_eq]
      simp only [shifts, List.map_append, List.map_cons, List.map_nil, List.foldl_append,
        List.foldl_cons, List.foldl_nil, happly]
  | none =>
      -- both steps are refused
      have hnone : ∀ s : DateShift, s.modifier? = none → s.fits = false := by
        intro s hs
        rw [← s.isSome_modifier?, hs]
        rfl
      constructor
      · intro h
        have hfits := fits_of_refusals (refusals_of_sql h) ⟨.add, ⟨n, unit⟩⟩ (by simp [shifts])
        rw [hnone _ hadd] at hfits
        cases hfits
      · intro h
        have hfits := fits_of_refusals (refusals_of_sql h) ⟨.sub, ⟨-n, unit⟩⟩ (by simp [shifts])
        rw [hnone _ (hmodifier.trans hadd)] at hfits
        cases hfits

end DateChange

/-- **Steps are bound exactly or refused.** Where dates are moved by modifiers, a date wrapper whose
operand compiles is refused for an invalid value exactly if the exact amount of one of its steps
does not fit 64 bits, and then for the first such step. Otherwise its modifiers are the exact
amounts with their signs and units, in the order of the steps, after the format and the values of
the operand. A step forward binds the same modifier as the step back by the opposite amount. -/
theorem Core.date_modifiers {scope : Scope} (hd : scope.dialect = .sqlite) (value : Expr)
    (prepare : Preparation) (change : DateChange) (hfrom : change.fromPattern = none)
    {b b₁ : Bindings} {us : List Lexeme}
    (hoperand : (dateOperand scope value prepare).run .sqlite b = (.ok us, b₁)) :
    ((∃ field fault, (((Core.date value prepare change).fragment scope).sql .sqlite b).1
        = .error (.invalid field fault)) ↔ ∃ s ∈ change.shifts, s.fits = false)
    ∧ (∀ s, change.shifts.find? (!·.fits) = some s →
      (((Core.date value prepare change).fragment scope).sql .sqlite b).1 = .error s.refusal)
    ∧ ((∀ s ∈ change.shifts, s.fits = true ∧ s.step.unit ≠ .microsecond) →
      (∀ e, change.formats? = .error e →
        (((Core.date value prepare change).fragment scope).sql .sqlite b).1 = .error e)
      ∧ ∀ formats, change.formats? = .ok formats → ∃ text b' own,
        ((Core.date value prepare change).fragment scope).sql .sqlite b = (.ok text, b')
          ∧ b₁.values = b.values ++ own
          ∧ b'.values = b.values ++ formats.map Value.text ++ own
            ++ change.shifts.map fun s => Value.text s.text)
    ∧ ∀ (adds subs : List Interval.Step) (n : Int) (unit : Interval.Unit) (text : String)
        (b' : Bindings),
      ((Core.date value prepare ⟨none, adds ++ [⟨n, unit⟩], subs, change.format⟩).fragment
          scope).sql .sqlite b = (.ok text, b') ↔
        ((Core.date value prepare ⟨none, adds, ⟨-n, unit⟩ :: subs, change.format⟩).fragment
          scope).sql .sqlite b = (.ok text, b') := by
  have hfirst : ∀ s, change.shifts.find? (!·.fits) = some s →
      (((Core.date value prepare change).fragment scope).sql .sqlite b).1 = .error s.refusal := by
    intro s hs
    rw [sql_date_error_iff hd hoperand, change.refusals_eq hfrom, List.head?_append,
      List.head?_map, List.head?_filter, hs]
    rfl
  have hsteps : (∀ s ∈ change.shifts, s.fits = true) → change.shifts.filter (!·.fits) = [] := by
    intro h
    simpa [List.filter_eq_nil_iff] using h
  refine ⟨⟨?_, ?_⟩, hfirst, fun hfits => ⟨fun e he => ?_, fun formats hformats => ?_⟩, ?_⟩
  · rintro ⟨field, fault, herror⟩
    by_contra hall
    have hfits : ∀ s ∈ change.shifts, s.fits = true := by simpa using hall
    rw [sql_date_error_iff hd hoperand, change.refusals_eq hfrom, hsteps hfits] at herror
    cases hformats : change.formats? with
    | ok formats => simp [hformats] at herror
    | error e =>
        obtain ⟨feature, rfl⟩ := change.formats?_error hformats
        simp [hformats] at herror
  · rintro ⟨s, hs, hfits⟩
    obtain ⟨first, hfind⟩ : ∃ first, change.shifts.find? (!·.fits) = some first := by
      rw [← Option.isSome_iff_exists, List.find?_isSome]
      exact ⟨s, hs, by simp [hfits]⟩
    rw [hfirst first hfind]
    obtain ⟨field, fault, hrefusal⟩ := first.exists_refusal_eq
    exact ⟨field, fault, by rw [hrefusal]⟩
  · rw [sql_date_error_iff hd hoperand, change.refusals_eq hfrom,
      hsteps fun s hs => (hfits s hs).1, he]
    rfl
  · have hnone : change.refusals = [] := by
      rw [change.refusals_eq hfrom, hsteps fun s hs => (hfits s hs).1, hformats]
      rfl
    obtain ⟨text, b', own, hsql, hown, hvalues⟩ := sql_date_ok hd hoperand hnone
    refine ⟨text, b', own, hsql, hown, ?_⟩
    rw [hvalues, DateShift.filterMap_modifier? hfits, DateChange.formats, hformats, List.map_map]
    rfl
  · intro adds subs n unit text b'
    rw [fragment_date, fragment_date, hd]
    exact DateChange.apply_opposite adds subs n unit change.format

/-- Two weeks forward and a quarter back from a moment, written as a year. -/
theorem Core.date_modifiers_fortnight :
    let scope := Scope.outermost .sqlite none
    let value := Expr.number (.int 2460000)
    let change : DateChange := ⟨none, [⟨2, .week⟩], [⟨1, .quarter⟩], some "YYYY"⟩
    (dateOperand scope value {}).run .sqlite Bindings.empty
      = (.ok [.slot 1], ⟨1, [.int 2460000], none⟩) ∧
    ∃ text b', ((Core.date value {} change).fragment scope).sql .sqlite Bindings.empty
        = (.ok text, b')
      ∧ b'.values = [.text "%Y", .int 2460000, .text "+14 days", .text "-3 months"] := by
  intro scope value change
  have hoperand : (dateOperand scope value {}).run .sqlite Bindings.empty
      = (.ok [.slot 1], ⟨1, [.int 2460000], none⟩) := by cbv
  refine ⟨hoperand, ?_⟩
  obtain ⟨text, b', own, hsql, hown, hvalues⟩ :=
    ((Core.date_modifiers rfl value {} change rfl hoperand).2.2.1 (by decide)).2 ["%Y"] (by cbv)
  obtain rfl : own = [.int 2460000] := by simpa [Bindings.empty] using hown.symm
  refine ⟨text, b', hsql, ?_⟩
  rw [hvalues]
  decide

end QueryTree
