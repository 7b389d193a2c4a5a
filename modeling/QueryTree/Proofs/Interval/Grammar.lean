import Mathlib.Data.List.Forall2
import Mathlib.Data.List.TakeWhile
import QueryTree.Interval

/-!
# Texts of intervals

Which texts are intervals, said without the scanner: a whole number with blanks around it, or steps,
each a signed number and a unit, with layout in front of each and after the last.

* `Numeral`: signed numbers of 64 bits; `numeral_iff` says that they are what is parsed.
* `DayCount`: a number with blanks around it; `dayCount_iff` says that it is what trimming leaves.
* `mem_letters_iff`: the letters that may end a step are those of the units.
* `Spelled`: steps; `scan_eq_some_iff` says that they are what is scanned.
* `steps_of_tokens`, `steps_eq_or`: no letter that is scanned lacks a unit.
* `Step.Written`, `spelled_of_written`: steps that are written down, and that they are spelled so.
* `ofJson_str_iff`: the texts that are intervals, and the steps that they denote.
-/

namespace QueryTree.Interval

open Text Decimal

/-! ## Numbers -/

/-- At least one digit and nothing else. -/
def Digits (cs : List Char) : Prop :=
  cs ≠ [] ∧ ∀ c ∈ cs, isDigit c = true

/-- A number of 64 bits in decimal digits, with or without a sign. -/
inductive Numeral : List Char → Int → Prop
  | unsigned {digits : List Char} (hdigits : Digits digits)
      (hrange : isInt64 (natOfDigits digits) = true) : Numeral digits (natOfDigits digits)
  | plus {digits : List Char} (hdigits : Digits digits)
      (hrange : isInt64 (natOfDigits digits) = true) : Numeral ('+' :: digits) (natOfDigits digits)
  | minus {digits : List Char} (hdigits : Digits digits)
      (hrange : isInt64 (-natOfDigits digits) = true) :
      Numeral ('-' :: digits) (-natOfDigits digits)

theorem digitsNat?_eq_some_iff {cs : List Char} {n : Nat} :
    digitsNat? cs = some n ↔ Digits cs ∧ natOfDigits cs = n := by
  simp [digitsNat?, Digits]

theorem amount?_eq_some_iff {negative : Bool} {digits : List Char} {n : Int} :
    amount? negative digits = some n ↔ Digits digits ∧ isInt64 n = true
      ∧ n = if negative then -(natOfDigits digits : Int) else natOfDigits digits := by
  unfold amount?
  by_cases hdigits : Digits digits
  · rw [digitsNat?_eq_some_iff.2 ⟨hdigits, rfl⟩]
    simp only [Option.bind_eq_bind, Option.bind_some, Option.ite_none_right_eq_some,
      Option.some.injEq]
    constructor
    · rintro ⟨hrange, rfl⟩
      exact ⟨hdigits, hrange, rfl⟩
    · rintro ⟨-, hrange, rfl⟩
      exact ⟨hrange, rfl⟩
  · have hnone : digitsNat? digits = none := by
      rw [Option.eq_none_iff_forall_not_mem]
      exact fun n hn => hdigits (digitsNat?_eq_some_iff.1 hn).1
    simp [hnone, hdigits]

/-- A digit is no sign and no blank of either kind. -/
theorem digit_ne {c : Char} (h : isDigit c = true) :
    c ≠ '-' ∧ c ≠ '+' ∧ isLayout c = false ∧ isBlank c = false := by
  have hcode : 48 ≤ c.toNat ∧ c.toNat ≤ 57 := by
    simpa [isDigit, Char.le_def, UInt32.le_iff_toNat_le] using h
  refine ⟨?_, ?_, ?_, ?_⟩
  · rintro rfl
    exact absurd h (by decide)
  · rintro rfl
    exact absurd h (by decide)
  · simp only [isLayout, Bool.or_eq_false_iff, beq_eq_false_iff_ne]
    refine ⟨⟨⟨?_, ?_⟩, ?_⟩, ?_⟩ <;> (rintro rfl; exact absurd h (by decide))
  · simp [isBlank, inRanges, blankRanges]
    omega

/-- What an optional number gives, as an integer. -/
theorem exists_of_cast {n? : Option Nat} {sign : Int → Int} {n : Int}
    (h : Option.map sign (do let m ← n?; pure (m : Int)) = some n) :
    ∃ m, n? = some m ∧ sign m = n := by
  cases n? with
  | none => cases h
  | some m => exact ⟨m, rfl, Option.some.inj h⟩

theorem numeral_iff {cs : List Char} {n : Int} :
    Numeral cs n ↔ parseInt? cs = some n ∧ isInt64 n = true := by
  constructor
  · intro h
    cases h with
    | unsigned hdigits hrange =>
        cases cs with
        | nil => exact absurd rfl hdigits.1
        | cons c cs =>
            obtain ⟨hminus, hplus, -, -⟩ := digit_ne (hdigits.2 c List.mem_cons_self)
            refine ⟨?_, hrange⟩
            simp [parseInt?, hminus, hplus, digitsNat?_eq_some_iff.2 ⟨hdigits, rfl⟩]
    | plus hdigits hrange =>
        exact ⟨by simp [parseInt?, digitsNat?_eq_some_iff.2 ⟨hdigits, rfl⟩], hrange⟩
    | minus hdigits hrange =>
        exact ⟨by simp [parseInt?, digitsNat?_eq_some_iff.2 ⟨hdigits, rfl⟩], hrange⟩
  · rintro ⟨h, hrange⟩
    unfold parseInt? at h
    split at h
    · obtain ⟨m, hm, rfl⟩ := exists_of_cast h
      obtain ⟨hdigits, rfl⟩ := digitsNat?_eq_some_iff.1 hm
      exact .minus hdigits hrange
    · obtain ⟨m, hm, rfl⟩ := exists_of_cast h
      obtain ⟨hdigits, rfl⟩ := digitsNat?_eq_some_iff.1 hm
      exact .plus hdigits hrange
    · obtain ⟨m, hm, rfl⟩ := exists_of_cast h
      obtain ⟨hdigits, rfl⟩ := digitsNat?_eq_some_iff.1 hm
      exact .unsigned hdigits hrange

/-! ## Day counts -/

/-- A number with blanks around it. -/
def DayCount (cs : List Char) (n : Int) : Prop :=
  ∃ before numeral after, cs = before ++ numeral ++ after ∧ (∀ c ∈ before, isBlank c = true)
    ∧ (∀ c ∈ after, isBlank c = true) ∧ Numeral numeral n

/-- The characters of a number, none of which is a blank. -/
theorem Numeral.cases_of_mem {cs : List Char} {n : Int} (h : Numeral cs n) :
    cs ≠ [] ∧ ∀ c ∈ cs, (isDigit c = true ∨ c = '+' ∨ c = '-') ∧ isBlank c = false := by
  have hdigit : ∀ {digits : List Char}, Digits digits →
      ∀ c ∈ digits, (isDigit c = true ∨ c = '+' ∨ c = '-') ∧ isBlank c = false :=
    fun hdigits c hc => ⟨.inl (hdigits.2 c hc), (digit_ne (hdigits.2 c hc)).2.2.2⟩
  cases h with
  | unsigned hdigits _ => exact ⟨hdigits.1, hdigit hdigits⟩
  | plus hdigits _ =>
      exact ⟨by simp, List.forall_mem_cons.2 ⟨⟨.inr (.inl rfl), by decide⟩, hdigit hdigits⟩⟩
  | minus hdigits _ =>
      exact ⟨by simp, List.forall_mem_cons.2 ⟨⟨.inr (.inr rfl), by decide⟩, hdigit hdigits⟩⟩

theorem dropWhile_blanks {blanks cs : List Char} (hblanks : ∀ c ∈ blanks, isBlank c = true)
    (hne : cs ≠ []) (hcs : ∀ c ∈ cs, isBlank c = false) (rest : List Char) :
    (blanks ++ (cs ++ rest)).dropWhile isBlank = cs ++ rest := by
  rw [List.dropWhile_append_of_pos hblanks]
  cases cs with
  | nil => exact absurd rfl hne
  | cons c cs => simp [hcs c List.mem_cons_self]

/-- Trimming takes away the blanks around what has none. -/
theorem trim_blanks {before cs after : List Char} (hbefore : ∀ c ∈ before, isBlank c = true)
    (hafter : ∀ c ∈ after, isBlank c = true) (hne : cs ≠ []) (hcs : ∀ c ∈ cs, isBlank c = false) :
    trim (before ++ cs ++ after) = cs := by
  have hback := @dropWhile_blanks after.reverse cs.reverse (by simpa using hafter)
    (by simpa using hne) (by simpa using hcs) []
  rw [List.append_nil] at hback
  rw [trim, List.append_assoc, dropWhile_blanks hbefore hne hcs, List.reverse_append, hback,
    List.reverse_reverse]

/-- What is trimmed is the text with blanks around it. -/
theorem exists_trim (cs : List Char) : ∃ before after, cs = before ++ trim cs ++ after
    ∧ (∀ c ∈ before, isBlank c = true) ∧ ∀ c ∈ after, isBlank c = true := by
  refine ⟨cs.takeWhile isBlank, ((cs.dropWhile isBlank).reverse.takeWhile isBlank).reverse,
    ?_, ?_, ?_⟩
  · rw [trim, List.append_assoc, ← List.reverse_append, List.takeWhile_append_dropWhile,
      List.reverse_reverse, List.takeWhile_append_dropWhile]
  · exact fun c hc => List.mem_takeWhile_imp hc
  · exact fun c hc => List.mem_takeWhile_imp (List.mem_reverse.1 hc)

/-- **A day count is a text that is a number when it is trimmed.** -/
theorem dayCount_iff {cs : List Char} {n : Int} : DayCount cs n ↔ Numeral (trim cs) n := by
  constructor
  · rintro ⟨before, numeral, after, rfl, hbefore, hafter, hnumeral⟩
    obtain ⟨hne, hchars⟩ := hnumeral.cases_of_mem
    rwa [trim_blanks hbefore hafter hne fun c hc => (hchars c hc).2]
  · intro h
    obtain ⟨before, after, hcs, hbefore, hafter⟩ := exists_trim cs
    exact ⟨before, trim cs, after, hcs, hbefore, hafter, h⟩

/-! ## Steps -/

/-- Steps in a text: layout, a number and the letter of a unit for each of them, and layout at the
end. -/
inductive Spelled : List Char → List Step → Prop
  | nil {layout : List Char} (hlayout : ∀ c ∈ layout, isLayout c = true) : Spelled layout []
  | cons {layout numeral rest : List Char} {n : Int} {unit : Unit} {steps : List Step}
      (hlayout : ∀ c ∈ layout, isLayout c = true) (hnumeral : Numeral numeral n)
      (hrest : Spelled rest steps) :
      Spelled (layout ++ (numeral ++ unit.symbol :: rest)) (⟨n, unit⟩ :: steps)

theorem symbol_not_digit (unit : Unit) : isDigit unit.symbol = false := by
  cases unit <;> decide

theorem ofSymbol?_symbol (unit : Unit) : Unit.ofSymbol? unit.symbol = some unit := by
  cases unit <;> rfl

/-- **The letters that may end a step are those of the units.** -/
theorem mem_letters_iff {c : Char} : c ∈ letters ↔ ∃ unit : Unit, unit.symbol = c := by
  have hletters : letters = Unit.all.map Unit.symbol := rfl
  have hall : ∀ unit : Unit, unit ∈ Unit.all := by
    intro unit
    cases unit <;> decide
  simp [hletters, hall]

/-- The amount of a step with the letter of its unit. -/
def Step.token (step : Step) : Token :=
  (step.amount, step.unit.symbol)

theorem step_token (field : String) (s : Step) : step field s.token = .ok s := by
  rw [Step.token, step, ofSymbol?_symbol]

/-- The steps that amounts and letters stand for are those that they come from. -/
theorem steps_of_tokens (field : String) (steps : List Step) :
    (steps.map Step.token).mapM (step field) = .ok steps := by
  induction steps with
  | nil => rfl
  | cons s steps ih =>
      rw [List.map_cons, List.mapM_cons, step_token, ih]
      rfl

/-! ### What is spelled is scanned -/

theorem scan_layout {layout : List Char} (h : ∀ c ∈ layout, isLayout c = true) (rest : List Char) :
    scan .idle (layout ++ rest) = scan .idle rest := by
  induction layout with
  | nil => rfl
  | cons c layout ih =>
      rw [List.forall_mem_cons] at h
      rw [List.cons_append, scan, if_pos h.1, ih h.2]

theorem scan_digits (negative : Bool) {more : List Char} (h : ∀ c ∈ more, isDigit c = true)
    (digits rest : List Char) : scan (.amount negative digits) (more ++ rest)
      = scan (.amount negative (digits ++ more)) rest := by
  induction more generalizing digits with
  | nil => rw [List.nil_append, List.append_nil]
  | cons c more ih =>
      rw [List.forall_mem_cons] at h
      rw [List.cons_append, scan, if_pos h.1, ih h.2, List.append_assoc, List.singleton_append]

theorem scan_unit {negative : Bool} {digits : List Char} {n : Int}
    (h : amount? negative digits = some n) (unit : Unit) (rest : List Char) :
    scan (.amount negative digits) (unit.symbol :: rest)
      = (scan .idle rest).map ((n, unit.symbol) :: ·) := by
  have hletter : letters.contains unit.symbol = true :=
    List.contains_iff_mem.2 (mem_letters_iff.2 ⟨unit, rfl⟩)
  rw [scan, if_neg (by simp [symbol_not_digit]), h]
  simp only [Option.bind_eq_bind, Option.bind_some, hletter, if_true]
  cases scan .idle rest <;> rfl

theorem scan_numeral {numeral : List Char} {n : Int} (h : Numeral numeral n) (unit : Unit)
    (rest : List Char) : scan .idle (numeral ++ unit.symbol :: rest)
      = (scan .idle rest).map ((n, unit.symbol) :: ·) := by
  cases h with
  | unsigned hdigits hrange =>
      cases numeral with
      | nil => exact absurd rfl hdigits.1
      | cons c digits =>
          have hdigit := List.forall_mem_cons.1 hdigits.2
          obtain ⟨hminus, hplus, hlayout, -⟩ := digit_ne hdigit.1
          rw [List.cons_append, scan, if_neg (by simp [hlayout]), if_neg hminus, if_neg hplus,
            if_pos hdigit.1, scan_digits false hdigit.2, List.singleton_append]
          exact scan_unit (amount?_eq_some_iff.2 ⟨hdigits, hrange, rfl⟩) unit rest
  | plus hdigits hrange =>
      rw [List.cons_append, scan, if_neg (by decide), if_neg (by decide), if_pos rfl,
        scan_digits false hdigits.2, List.nil_append]
      exact scan_unit (amount?_eq_some_iff.2 ⟨hdigits, hrange, rfl⟩) unit rest
  | minus hdigits hrange =>
      rw [List.cons_append, scan, if_neg (by decide), if_pos rfl, scan_digits true hdigits.2,
        List.nil_append]
      exact scan_unit (amount?_eq_some_iff.2 ⟨hdigits, hrange, rfl⟩) unit rest

theorem Spelled.scan_eq {cs : List Char} {steps : List Step} (h : Spelled cs steps) :
    scan .idle cs = some (steps.map Step.token) := by
  induction h with
  | nil hlayout => simpa [scan] using scan_layout hlayout []
  | cons hlayout hnumeral _ ih =>
      rw [scan_layout hlayout, scan_numeral hnumeral, ih, Option.map_some]
      rfl

/-! ### What is scanned is spelled -/

theorem Spelled.layout {c : Char} (hc : isLayout c = true) {cs : List Char} {steps : List Step}
    (h : Spelled cs steps) : Spelled (c :: cs) steps := by
  cases h with
  | nil hlayout => exact .nil (List.forall_mem_cons.2 ⟨hc, hlayout⟩)
  | cons hlayout hnumeral hrest =>
      exact .cons (List.forall_mem_cons.2 ⟨hc, hlayout⟩) hnumeral hrest

/-- What a text has to be for steps to be scanned from it: steps, or the rest of a step that has
been begun and the steps after it. -/
def Completes : Progress → List Char → List Step → Prop
  | .idle, cs, steps => Spelled cs steps
  | .amount negative digits, cs, steps =>
    ∃ more n unit rest after, cs = more ++ unit.symbol :: rest
      ∧ (∀ c ∈ more, isDigit c = true) ∧ amount? negative (digits ++ more) = some n
      ∧ steps = ⟨n, unit⟩ :: after ∧ Spelled rest after

theorem completes_of_scan {progress : Progress} {cs : List Char} {tokens : List Token}
    (h : scan progress cs = some tokens) :
    ∃ steps, tokens = steps.map Step.token ∧ Completes progress cs steps := by
  fun_induction scan progress cs generalizing tokens with
  | case1 =>
      cases h
      exact ⟨[], rfl, .nil (by simp)⟩
  | case2 => cases h
  | case3 c cs hc ih =>
      obtain ⟨steps, rfl, hsteps⟩ := ih h
      exact ⟨steps, rfl, Spelled.layout hc hsteps⟩
  | case4 cs hc ih =>
      obtain ⟨_, rfl, digits, n, unit, rest, after, rfl, -, hamount, rfl, hrest⟩ := ih h
      obtain ⟨hdigits, hrange, rfl⟩ := amount?_eq_some_iff.1 hamount
      exact ⟨_, rfl, @Spelled.cons [] _ _ _ _ _ (by simp) (.minus hdigits hrange) hrest⟩
  | case5 cs hc hne ih =>
      obtain ⟨_, rfl, digits, n, unit, rest, after, rfl, -, hamount, rfl, hrest⟩ := ih h
      obtain ⟨hdigits, hrange, rfl⟩ := amount?_eq_some_iff.1 hamount
      exact ⟨_, rfl, @Spelled.cons [] _ _ _ _ _ (by simp) (.plus hdigits hrange) hrest⟩
  | case6 c cs hlayout hminus hplus hdigit ih =>
      obtain ⟨_, rfl, more, n, unit, rest, after, rfl, -, hamount, rfl, hrest⟩ := ih h
      obtain ⟨hdigits, hrange, rfl⟩ := amount?_eq_some_iff.1 hamount
      exact ⟨_, rfl, @Spelled.cons [] _ _ _ _ _ (by simp) (.unsigned hdigits hrange) hrest⟩
  | case7 => cases h
  | case8 negative digits c cs hdigit ih =>
      obtain ⟨_, rfl, more, n, unit, rest, after, rfl, hmore, hamount, rfl, hrest⟩ := ih h
      refine ⟨_, rfl, c :: more, n, unit, rest, after, rfl,
        List.forall_mem_cons.2 ⟨hdigit, hmore⟩, ?_, rfl, hrest⟩
      rwa [List.append_assoc, List.singleton_append] at hamount
  | case9 negative digits c cs hdigit ih =>
      obtain ⟨n, hamount, h⟩ := Option.bind_eq_some_iff.1 h
      split at h
      · next hletter =>
          obtain ⟨after, hafter, h⟩ := Option.bind_eq_some_iff.1 h
          cases h
          obtain ⟨unit, rfl⟩ := mem_letters_iff.1 (List.contains_iff_mem.1 hletter)
          obtain ⟨steps, rfl, hsteps⟩ := ih hafter
          exact ⟨⟨n, unit⟩ :: steps, rfl, [], n, unit, cs, steps, rfl, by simp,
            by rwa [List.append_nil], rfl, hsteps⟩
      · cases h

/-- **What is scanned is what a text spells.** -/
theorem scan_eq_some_iff {cs : List Char} {tokens : List Token} :
    scan .idle cs = some tokens ↔ ∃ steps, tokens = steps.map Step.token ∧ Spelled cs steps := by
  constructor
  · exact completes_of_scan
  · rintro ⟨steps, rfl, hsteps⟩
    exact hsteps.scan_eq

theorem tokens?_eq_some_iff {cs : List Char} {tokens : List Token} :
    tokens? cs = some tokens
      ↔ ∃ steps, steps ≠ [] ∧ tokens = steps.map Step.token ∧ Spelled cs steps := by
  have hiff : tokens? cs = some tokens ↔ scan .idle cs = some tokens ∧ tokens ≠ [] := by
    rw [tokens?]
    split
    · next token rest hscan =>
        rw [hscan, Option.some.injEq]
        exact ⟨fun h => ⟨h, by simp [← h]⟩, And.left⟩
    · next hnone =>
        refine ⟨fun h => (nomatch h), fun ⟨hscan, hne⟩ => ?_⟩
        cases tokens with
        | nil => exact absurd rfl hne
        | cons token rest => exact (hnone token rest hscan).elim
  rw [hiff, scan_eq_some_iff]
  constructor
  · rintro ⟨⟨steps, rfl, hsteps⟩, hne⟩
    exact ⟨steps, by simpa using hne, rfl, hsteps⟩
  · rintro ⟨steps, hne, rfl, hsteps⟩
    exact ⟨⟨steps, rfl, hsteps⟩, by simpa using hne⟩

/-- **A text that is no day count is read as the steps that it spells, or refused as no interval.**
That a letter has no unit is never the reason. -/
theorem steps_eq_or (field text : String) :
    (∃ s, s ≠ [] ∧ Spelled text.toList s ∧ steps field text = .ok s)
      ∨ ((∀ s, Spelled text.toList s → s = [])
        ∧ steps field text = .error (.invalid field (.notInterval text))) := by
  cases htokens : tokens? text.toList with
  | some tokens =>
      obtain ⟨s, hne, rfl, hspelled⟩ := tokens?_eq_some_iff.1 htokens
      refine .inl ⟨s, hne, hspelled, ?_⟩
      rw [steps, htokens]
      exact steps_of_tokens field s
  | none =>
      refine .inr ⟨fun s hspelled => ?_, by rw [steps, htokens]⟩
      by_contra hne
      rw [tokens?_eq_some_iff.2 ⟨s, hne, rfl, hspelled⟩] at htokens
      cases htokens

theorem Spelled.unique {cs : List Char} {s t : List Step} (hs : Spelled cs s) (ht : Spelled cs t) :
    s = t := by
  have htokens : s.map Step.token = t.map Step.token :=
    Option.some.inj (hs.scan_eq.symm.trans ht.scan_eq)
  have hsteps := (steps_of_tokens "" s).symm.trans (htokens ▸ steps_of_tokens "" t)
  exact Except.ok.inj hsteps

theorem steps_eq_ok_iff {field text : String} {s : List Step} :
    steps field text = .ok s ↔ Spelled text.toList s ∧ s ≠ [] := by
  obtain ⟨t, hne, hspelled, heq⟩ | ⟨hnil, heq⟩ := steps_eq_or field text
  · rw [heq, Except.ok.injEq]
    constructor
    · rintro rfl
      exact ⟨hspelled, hne⟩
    · rintro ⟨hs, -⟩
      exact hspelled.unique hs
  · rw [heq]
    exact ⟨fun h => (nomatch h), fun ⟨hs, hne⟩ => (hne (hnil s hs)).elim⟩

/-! ## Texts -/

theorem symbol_ne (unit : Unit) : isBlank unit.symbol = false ∧ unit.symbol ≠ '+'
    ∧ unit.symbol ≠ '-' := by
  cases unit <;> decide

/-- Steps have a letter, and a day count has none. -/
theorem Spelled.not_dayCount {cs : List Char} {steps : List Step} (h : Spelled cs steps)
    (hne : steps ≠ []) (n : Int) : ¬ DayCount cs n := by
  rintro ⟨before, numeral, after, hcs, hbefore, hafter, hnumeral⟩
  cases h with
  | nil _ => exact hne rfl
  | @cons layout digits rest m unit steps _ _ _ =>
      obtain ⟨hblank, hplus, hminus⟩ := symbol_ne unit
      have hdigit := symbol_not_digit unit
      have hmem : unit.symbol ∈ before ++ numeral ++ after := hcs ▸ by simp
      rw [List.mem_append, List.mem_append] at hmem
      rcases hmem with (hmem | hmem) | hmem
      · simp [hbefore _ hmem] at hblank
      · rcases (hnumeral.cases_of_mem.2 _ hmem).1 with h | h | h
        · simp [h] at hdigit
        · exact hplus h
        · exact hminus h
      · simp [hafter _ hmem] at hblank

theorem dayCount?_eq_some_iff {cs : List Char} {n : Int} :
    dayCount? cs = some n ↔ DayCount cs n := by
  rw [dayCount_iff, numeral_iff, dayCount?, Option.filter_eq_some_iff]

theorem ofJson_str_eq_ok_iff {field text : String} {s : List Step} :
    ofJson field (.str text) = .ok s
      ↔ (∃ n, DayCount text.toList n ∧ s = days n) ∨ Spelled text.toList s ∧ s ≠ [] := by
  rw [ofJson]
  cases hday : dayCount? text.toList with
  | some n =>
      have hn := dayCount?_eq_some_iff.1 hday
      simp only [Except.ok.injEq]
      constructor
      · exact fun h => .inl ⟨n, hn, h.symm⟩
      · rintro (⟨m, hm, rfl⟩ | ⟨hspelled, hne⟩)
        · rw [Option.some.inj (hday.symm.trans (dayCount?_eq_some_iff.2 hm))]
        · exact (hspelled.not_dayCount hne n hn).elim
  | none =>
      have hnone : ∀ n, ¬ DayCount text.toList n := by
        intro n hn
        rw [dayCount?_eq_some_iff.2 hn] at hday
        cases hday
      simp only [steps_eq_ok_iff]
      constructor
      · exact .inr
      · rintro (⟨n, hn, -⟩ | h)
        · exact (hnone n hn).elim
        · exact h

/-! ### Texts of steps -/

/-- The text of a step. -/
def Step.text (step : Step) : List Char :=
  (intText step.amount).toList ++ [step.unit.symbol]

/-- A step that is written with layout in front of it, or with none. -/
def Step.Written (text : List Char) (step : Step) : Prop :=
  ∃ layout, (∀ c ∈ layout, isLayout c = true) ∧ text = layout ++ step.text

/-- A decimal text is a number. -/
theorem numeral_intText {n : Int} (h : isInt64 n = true) : Numeral (intText n).toList n := by
  have hdigits : ∀ m, Digits (natDigits m) :=
    fun m => ⟨Nat.toDigits_ne_nil, fun _ hc => isDigit_of_mem_natDigits hc⟩
  cases n with
  | ofNat m =>
      have htext : (intText (.ofNat m)).toList = natDigits m := String.toList_ofList
      have hvalue : (natOfDigits (natDigits m) : Int) = .ofNat m := by
        rw [natOfDigits_natDigits]
        rfl
      rw [htext, ← hvalue]
      exact .unsigned (hdigits m) (hvalue ▸ h)
  | negSucc m =>
      have htext : (intText (.negSucc m)).toList = '-' :: natDigits (m + 1) := by
        simp [intText, natText]
      have hvalue : -(natOfDigits (natDigits (m + 1)) : Int) = .negSucc m := by
        rw [natOfDigits_natDigits]
        rfl
      rw [htext, ← hvalue]
      exact .minus (hdigits (m + 1)) (hvalue ▸ h)

/-- **Steps that are written are spelled.** -/
theorem spelled_of_written {texts : List (List Char)} {steps : List Step}
    (hrange : ∀ step ∈ steps, isInt64 step.amount = true)
    (h : List.Forall₂ Step.Written texts steps) : Spelled texts.flatten steps := by
  induction h with
  | nil => exact .nil (by simp)
  | @cons text step texts steps htext _ ih =>
      obtain ⟨layout, hlayout, rfl⟩ := htext
      rw [List.forall_mem_cons] at hrange
      have hspelled := @Spelled.cons _ _ _ _ step.unit _ hlayout (numeral_intText hrange.1)
        (ih hrange.2)
      simpa [Step.text] using hspelled

/-- **Which texts are intervals.** A text is an interval exactly if it is a number of 64 bits with
blanks around it, which counts days, or if it spells at least one step, and then it denotes the
steps that it spells, in their order. Steps that are written one after the other, with any layout
between them or none, are read back. -/
theorem ofJson_str_iff (field : String) :
    (∀ text steps, ofJson field (.str text) = .ok steps ↔
      (∃ n, DayCount text.toList n ∧ steps = days n) ∨ Spelled text.toList steps ∧ steps ≠ [])
    ∧ ∀ texts steps, steps ≠ [] → (∀ step ∈ steps, isInt64 step.amount = true) →
      List.Forall₂ Step.Written texts steps →
      ofJson field (.str (String.ofList texts.flatten)) = .ok steps := by
  refine ⟨fun text steps => ofJson_str_eq_ok_iff, fun texts steps hne hrange htexts => ?_⟩
  refine ofJson_str_eq_ok_iff.2 (.inr ⟨?_, hne⟩)
  rw [String.toList_ofList]
  exact spelled_of_written hrange htexts

/-- The least number of 64 bits is read back; the number below it is no step. -/
theorem ofJson_str_iff_least :
    ofJson "date.add" (.str "-9223372036854775808M\t2d")
        = .ok [⟨-9223372036854775808, .month⟩, ⟨2, .day⟩]
      ∧ ¬ Spelled "-9223372036854775809M\t2d".toList
        [⟨-9223372036854775809, .month⟩, ⟨2, .day⟩] := by
  obtain ⟨hiff, hwritten⟩ := ofJson_str_iff "date.add"
  constructor
  · refine hwritten ["-9223372036854775808M".toList, "\t2d".toList] _ (by simp) (by decide) ?_
    exact .cons ⟨[], by simp, rfl⟩ (.cons ⟨['\t'], List.forall_mem_singleton.2 rfl, rfl⟩ .nil)
  · intro hspelled
    have hok := (hiff "-9223372036854775809M\t2d" _).2 (.inr ⟨hspelled, by simp⟩)
    have herror : ofJson "date.add" (.str "-9223372036854775809M\t2d")
        = .error (.invalid "date.add" (.notInterval "-9223372036854775809M\t2d")) := rfl
    rw [herror] at hok
    cases hok

end QueryTree.Interval
