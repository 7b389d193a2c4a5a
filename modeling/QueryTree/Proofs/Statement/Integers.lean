import QueryTree.Proofs.Binding.Content
import QueryTree.Proofs.Decimal.Nearest
import QueryTree.Proofs.Interval.Grammar
import QueryTree.Proofs.Statement.Composition
import QueryTree.Proofs.Tree.Reading

/-!
# Integers of a statement

The integers of a statement are bound as they are, if they fit 64 bits with a sign. Those that only
fit 64 bits without a sign are bound as the nearest floating-point number, which is the same number
exactly if it is a multiple of 2048.

* `Value.NearestTo`: values that are bound for an integer.
* `Json.Counts`, `ensures_readQuery_counts`: the counts of rows that a query is read with.
* `Segment.integers`: numbers and counts of rows.
* `Config.integers_of_statement`: what is bound for the integers of a statement.
-/

namespace QueryTree

open Decimal (numberOf? nearestUnits natOfDigits)
open Fragment (Holds)
open QueryTree.Interval (Digits)
open Reading (Ensures)

/-! ## Integers as values -/

/-- The number that a value stands for. -/
def Value.number? : Value → Option ℚ
  | .int n => some n
  | .float x => numberOf? x
  | .null | .bool _ | .text _ | .identifier _ => none

@[simp]
theorem Value.number?_int (n : Int) : (Value.int n).number? = some (n : ℚ) := rfl

/-- A value that is bound for an integer of 64 bits, with or without a sign. -/
structure Value.NearestTo (n : Int) (v : Value) : Prop where
  /-- An integer of 64 bits with a sign is bound as it is. -/
  small : n < 2 ^ 63 → v = .int n
  /-- Above that, it is rounded to a number of units of 2048, the even one of two that are as near,
  and no floating-point number is nearer. -/
  large : 2 ^ 63 ≤ n → ∃ (x : Float) (units : Nat), v = .float x
    ∧ numberOf? x = some (2048 * units)
    ∧ (∀ y r, numberOf? y = some r → |(2048 * units : ℚ) - n| ≤ |r - n|)
    ∧ (|(2048 * units : ℤ) - n| = 1024 → 2 ∣ units)
  exact_iff : v.number? = some (n : ℚ) ↔ n < 2 ^ 63 ∨ 2048 ∣ n

theorem Value.ofNat_of_large {n : Nat} (lo : 2 ^ 63 ≤ n) :
    Value.ofNat n = .float (Decimal.floatOfInt n) := by
  rw [ofNat, ofInt, if_neg]
  simp only [Decimal.isInt64, Bool.and_eq_true, decide_eq_true_eq]
  omega

theorem Value.number?_ofNat_of_large {n : Nat} (lo : 2 ^ 63 ≤ n) (hi : n < 2 ^ 64) :
    (Value.ofNat n).number? = some ((2048 * nearestUnits n : Nat) : ℚ) := by
  rw [ofNat_of_large lo]
  exact Decimal.numberOf?_floatOfInt lo hi

/-- **What is bound for an integer of 64 bits is nearest to it.** -/
theorem Value.nearestTo_ofInt {n : Int} (lo : -2 ^ 63 ≤ n) (hi : n < 2 ^ 64) :
    (Value.ofInt n).NearestTo n := by
  by_cases hsmall : n < 2 ^ 63
  · have hvalue : Value.ofInt n = .int n := by
      refine if_pos ?_
      simp only [Decimal.isInt64, Bool.and_eq_true, decide_eq_true_eq]
      omega
    rw [hvalue]
    exact ⟨fun _ => rfl, fun hlarge => by omega, fun _ => .inl hsmall, fun _ => rfl⟩
  · obtain ⟨n, rfl⟩ := Int.eq_ofNat_of_zero_le (by omega : 0 ≤ n)
    have lo : 2 ^ 63 ≤ n := by omega
    have hi : n < 2 ^ 64 := by omega
    refine ⟨fun h => absurd h hsmall,
      fun _ => ⟨_, nearestUnits n, ofNat_of_large lo, ?_, ?_, ?_⟩, ?_⟩
    · simpa using Decimal.numberOf?_floatOfInt lo hi
    · intro y r hy
      simpa using Decimal.nearest_of_numberOf? lo hy
    · intro htie
      exact Decimal.even_of_tie n (by simpa using htie)
    · rw [← ofNat, number?_ofNat_of_large lo hi, or_iff_right hsmall, Option.some.injEq,
        Int.cast_natCast, Nat.cast_inj, Decimal.nearestUnits_eq_iff]
      omega

/-! ## Counts of rows -/

/-- A count of rows: a number, or the text of one of 64 bits without a sign. -/
inductive Json.Counts : Json → Nat → Prop
  | number (n : Nat) : Counts (.num (.int n)) n
  | text {s : String} {digits : List Char} (hdigits : Digits digits)
      (hs : s.toList = digits ∨ s.toList = '+' :: digits) (hrange : natOfDigits digits < 2 ^ 64) :
      Counts (.str s) (natOfDigits digits)

/-- A count of rows is given as a field. -/
def Record.Counts (record : Record) (key : String) (n : Nat) : Prop :=
  ∃ json, record.json? key = some json ∧ json.Counts n

theorem parseNat?_eq_some_iff {cs : List Char} {n : Nat} : Decimal.parseNat? cs = some n ↔
    ∃ digits, Digits digits ∧ (cs = digits ∨ cs = '+' :: digits) ∧ natOfDigits digits = n := by
  have hnone : ¬ Digits ('+' :: cs.tail) :=
    fun h => absurd (h.2 '+' List.mem_cons_self) (by decide)
  unfold Decimal.parseNat?
  split
  · rw [Interval.digitsNat?_eq_some_iff]
    constructor
    · rintro ⟨hdigits, hn⟩
      exact ⟨_, hdigits, .inr rfl, hn⟩
    · rintro ⟨digits, hdigits, rfl | hcs, hn⟩
      · exact absurd hdigits hnone
      · cases hcs
        exact ⟨hdigits, hn⟩
  · next hplus =>
      rw [Interval.digitsNat?_eq_some_iff]
      constructor
      · rintro ⟨hdigits, hn⟩
        exact ⟨_, hdigits, .inl rfl, hn⟩
      · rintro ⟨digits, hdigits, rfl | hcs, hn⟩
        · exact ⟨hdigits, hn⟩
        · exact absurd hcs (hplus digits)

theorem Json.counts_num_iff {m : Number} {n : Nat} : (Json.num m).Counts n ↔ m.nat? = some n := by
  constructor
  · rintro ⟨⟩
    rfl
  · intro h
    cases m with
    | float x => cases h
    | int m =>
        cases m with
        | ofNat m =>
            cases h
            exact .number _
        | negSucc m => cases h

theorem Json.counts_str_iff {s : String} {n : Nat} : (Json.str s).Counts n
    ↔ Decimal.parseNat? s.toList = some n ∧ Decimal.isNat64 n = true := by
  have hrange : ∀ n : Nat, Decimal.isNat64 n = true ↔ n < 2 ^ 64 := by
    intro n
    simp only [Decimal.isNat64, Bool.and_eq_true, decide_eq_true_eq]
    omega
  rw [parseNat?_eq_some_iff, hrange]
  constructor
  · rintro ⟨⟩
    exact ⟨⟨_, ‹_›, ‹_›, rfl⟩, ‹_›⟩
  · rintro ⟨⟨digits, hdigits, hs, rfl⟩, hn⟩
    exact .text hdigits hs hn

/-- A count that is given is read. -/
theorem Record.count?_of_counts {record : Record} {key : String} {n : Nat}
    (h : record.Counts key n) : record.count? key = pure (some n) := by
  obtain ⟨json, hjson, hcounts⟩ := h
  unfold count?
  rw [hjson]
  cases json with
  | num m => simp only [Json.counts_num_iff.1 hcounts]
  | str s =>
      obtain ⟨hparse, hrange⟩ := Json.counts_str_iff.1 hcounts
      simp only [hparse, hrange, if_true]
  | null | bool | arr | obj => cases hcounts

/-- What is read as a count is given. -/
theorem counts_of_count? (record : Record) (key : String) :
    Ensures (fun count => ∀ n, count = some n → record.Counts key n) (record.count? key) := by
  unfold Record.count?
  split
  · next m hjson =>
      split
      · next count hcount =>
          refine .pure ?_
          rintro n ⟨⟩
          exact ⟨_, hjson, Json.counts_num_iff.2 hcount⟩
      · exact .invalid _ _
  · next s hjson =>
      split
      · next count hcount =>
          split
          · next hrange =>
              refine .pure ?_
              rintro n ⟨⟩
              exact ⟨_, hjson, Json.counts_str_iff.2 ⟨hcount, hrange⟩⟩
          · exact .invalid _ _
      · exact .invalid _ _
  · exact .invalid _ _
  · exact .pure fun n hn => nomatch hn

/-- A count is read exactly if it is given. -/
theorem ensures_count? (record : Record) (key : String) :
    Ensures (fun count => ∀ n, count = some n ↔ record.Counts key n) (record.count? key) := by
  intro s count s' hread n
  refine ⟨counts_of_count? record key s count s' hread n, fun hcounts => ?_⟩
  rw [Record.count?_of_counts hcounts] at hread
  cases Reading.pure_ok.1 hread
  rfl

/-- The counts that a query is read with. -/
theorem ensures_readQuery_counts (record : Record) :
    Ensures (fun q => (∀ n, q.limit = some n ↔ record.Counts "limit" n)
      ∧ ∀ n, q.offset = some n ↔ record.Counts "offset" n) (readQuery record) := by
  unfold readQuery
  -- nine other options are read before the counts
  iterate 9 refine .skip fun _ => ?_
  refine (ensures_count? record "limit").bind fun limit hlimit => ?_
  refine (ensures_count? record "offset").bind fun offset hoffset => ?_
  exact .skip fun _ => .pure ⟨hlimit, hoffset⟩

/-! ## Integers in a trace -/

/-- The integers that a segment has bound itself: a number, or the counts of a query. -/
def Segment.integers : Segment → List Int
  | .expr _ _ (.number (.int n)) => [n]
  | .query _ _ q => (q.limit.toList ++ q.offset.toList).map Int.ofNat
  | _ => []

/-- The integers are bound from left to right. -/
def BoundIn (integers : List (List Int)) (marks : List Mark) : Prop :=
  (integers.flatten.map Value.ofInt).Sublist ((placed marks).map Call.value)

theorem gathers_boundIn : Gathers BoundIn where
  nil _ := List.nil_sublist _
  append h h' := by
    simpa [BoundIn] using List.Sublist.append h h'

section

variable {dialect : Dialect} {f : Fragment} {n : Nat} {mode mode' : Option Cipher.Mode}
  {marks : List Mark} {stored : List Call}

/-- The calls of a trace store the values that the fragment amounts to. -/
theorem Traces.map_value (h : Traces dialect f n mode marks stored mode') :
    stored.map Call.value = (f.stored dialect).map Stored.value := by
  obtain ⟨mode, -, -, hb⟩ := Fragment.run_ok_iff.1 (h.run [])
  simpa [Fragment.extend] using congrArg Bindings.values hb

theorem aligned_limitFragment (d : Dialect) (limit offset : Option Nat) :
    (limitFragment d limit offset).aligned dialect = true := by
  cases limit <;> cases offset <;> cases d <;>
    simp [limitFragment, Dialect.unboundedLimit, clause, Fragment.spaced, Fragment.aligned]

theorem stored_limitFragment (d : Dialect) (limit offset : Option Nat) :
    ((limitFragment d limit offset).stored dialect).map Stored.value
      = (limit.toList ++ offset.toList).map Value.ofNat := by
  cases limit <;> cases offset <;> cases d <;>
    simp [limitFragment, Dialect.unboundedLimit, clause, Fragment.spaced, Fragment.stored]

/-- The counts of a query are bound where they are written. -/
theorem yields_limitFragment (d : Dialect) (limit offset : Option Nat) :
    (limitFragment d limit offset).Yields dialect
      (BoundIn [(limit.toList ++ offset.toList).map Int.ofNat]) := by
  intro n mode mode' marks stored htraces
  have hplaced : placed marks = stored :=
    htraces.placed_eq_stored_iff.2 (aligned_limitFragment d limit offset)
  have hvalues : (placed marks).map Call.value
      = (limit.toList ++ offset.toList).map Value.ofNat := by
    rw [hplaced, htraces.map_value, stored_limitFragment]
  have hofNat : Value.ofInt ∘ Int.ofNat = Value.ofNat := by
    funext n
    rw [Function.comp_apply, Value.ofNat, Int.ofNat_eq_natCast]
  rw [BoundIn, hvalues, List.flatten_singleton, List.map_map, hofNat]

/-- A segment has its own integers bound after those of its children. -/
theorem Segment.yields_integers (s : Segment) {integers : List (List Int)}
    (hchildren : ∀ f : Fragment, f.Holds (fragments s.children) →
      f.Yields dialect (BoundIn integers)) :
    s.body.Yields dialect (BoundIn (integers ++ [s.integers])) := by
  unfold Segment.integers
  split
  · next place scope m =>
      intro n mode mode' marks stored htraces
      -- a number has no children, so what they yield stands in any text
      have hnone := hchildren .empty (.none _) (.empty n mode)
      have hown : BoundIn [[m]] marks := by
        cases htraces
        simp [BoundIn, placed, Value.ofNumber]
      exact gathers_boundIn.append hnone hown
  · next outer build q =>
      obtain ⟨front, hbody, hfront⟩ := exists_body_query outer build q
      intro n mode mode' marks stored htraces
      rw [hbody] at htraces
      cases htraces with
      | append hbefore hlimit =>
          exact gathers_boundIn.append (hchildren front hfront hbefore)
            (yields_limitFragment _ _ _ hlimit)
  · intro n mode mode' marks stored htraces
    simpa [BoundIn] using hchildren _ s.holds_body htraces

end

namespace Config

/-- **What is bound for the integers of a statement.** An integer is read as a number, and a count
of rows, given as a number or as its text, as that count. Those of a compiled statement, at any
depth, are bound from left to right: as they are below `2 ^ 63`, and from there on as the nearest
floating-point number, which is the same integer exactly if that is a multiple of 2048. -/
theorem integers_of_statement {config : Config} {kind : StatementKind} {json : Json} {c : Compiled}
    (h : config.statement kind json = .ok c) :
    (∀ n : Int, (Node.ofJson (.num (.int n))).expr = pure (.number (.int n))
      ∧ (Node.ofJson (.num (.int n))).item = pure (.number (.int n)))
    ∧ (∀ (record : Record) (key : String) (n : Nat), record.Counts key n →
      record.count? key = pure (some n))
    ∧ (∀ record : Record, Ensures (fun q => (∀ n, q.limit = some n ↔ record.Counts "limit" n)
      ∧ ∀ n, q.offset = some n ↔ record.Counts "offset" n) (readQuery record))
    ∧ ∃ root f marks stored atoms calls, config.segment kind json = .ok root
      ∧ Traced config kind json c f marks stored atoms ∧ calls.Sublist (placed marks)
      ∧ (calls.map Call.value).Subperm c.values
      ∧ List.Forall₂ (fun n call => -2 ^ 63 ≤ n → n < 2 ^ 64 → call.value.NearestTo n)
        (root.all.flatMap Segment.integers) calls := by
  refine ⟨fun n => ⟨rfl, rfl⟩, fun _ _ _ => Record.count?_of_counts, ensures_readQuery_counts, ?_⟩
  obtain ⟨f, marks, stored, htraced, -, -⟩ := exists_traced h
  obtain ⟨root, hroot, rfl⟩ := exists_segment htraced.fragment_eq
  obtain ⟨mode, htraces⟩ := htraced.traces
  have hown : ∀ s integers, some (Segment.integers s) = some integers → ∀ earlier,
      (∀ f : Fragment, f.Holds (Segment.fragments s.children) →
        f.Yields config.dialect (BoundIn earlier)) →
      s.body.Yields config.dialect (BoundIn (earlier ++ [integers])) := by
    rintro s _ ⟨⟩ earlier hchildren
    exact s.yields_integers hchildren
  have hbound := root.yields_all gathers_boundIn hown htraces
  rw [BoundIn, List.filterMap_eq_map', ← List.flatMap_def] at hbound
  obtain ⟨calls, hcalls, hvalues⟩ := List.sublist_map_iff.1 hbound
  have hgiven : (calls.map Call.value).Subperm c.values := by
    rw [htraced.values_eq]
    exact (hcalls.map _).subperm.trans (htraces.perm_placed.map _).subperm
  refine ⟨root, _, marks, stored, _, calls, hroot, htraced, hcalls, hgiven, ?_⟩
  have heach : List.Forall₂ (· = ·) ((root.all.flatMap Segment.integers).map Value.ofInt)
      (calls.map Call.value) := by
    rw [List.forall₂_eq_eq_eq]
    exact hvalues
  rw [List.forall₂_map_left_iff, List.forall₂_map_right_iff] at heach
  refine heach.imp fun n call hvalue lo hi => ?_
  rw [← hvalue]
  exact Value.nearestTo_ofInt lo hi

/-- All items but the first twenty that have a price and an identifier just above `2 ^ 63`. -/
def oddItems : Json :=
  .obj [("table", .str "items"),
    ("where", .obj [("id", .num (.int 9223372036854775809)), ("price", .num (.int (-7)))]),
    ("limit", .num (.int 18446744073709551615)), ("offset", .str "20")]

theorem integers_of_statement_oddItems :
    ∃ c marks calls, ({ dialect := .sqlite } : Config).statement .select oddItems = .ok c
      ∧ c.sql = render .sqlite (marks.map Mark.lexeme) ∧ calls.Sublist (placed marks)
      ∧ (calls.map Call.value).Subperm c.values
      ∧ List.Forall₂ (fun n (call : Call) => call.value.NearestTo n)
        [9223372036854775809, -7, 18446744073709551615, 20] calls := by
  obtain ⟨c, hc⟩ : ∃ c, ({ dialect := .sqlite } : Config).statement .select oddItems = .ok c :=
    ⟨_, rfl⟩
  obtain ⟨-, -, -, root, f, marks, stored, atoms, calls, hroot, htraced, hcalls, hgiven, heach⟩ :=
    integers_of_statement hc
  cases hroot
  refine ⟨c, marks, calls, hc, htraced.sql_eq, hcalls, hgiven, ?_⟩
  rw [Segment.all_eq_upTo 8 rfl] at heach
  change List.Forall₂ _ [9223372036854775809, -7, 18446744073709551615, 20] calls at heach
  obtain _ | ⟨hid, _ | ⟨hprice, _ | ⟨hlimit, _ | ⟨hoffset, ⟨⟩⟩⟩⟩⟩ := heach
  refine .cons (hid ?_ ?_) (.cons (hprice ?_ ?_) (.cons (hlimit ?_ ?_)
    (.cons (hoffset ?_ ?_) .nil)))
  all_goals norm_num

/-- The identifier is bound as an even number, and the limit as one that does not fit 64 bits. -/
theorem integers_changed_oddItems :
    ∃ c, ({ dialect := .sqlite } : Config).statement .select oddItems = .ok c
      ∧ c.values.map Value.number?
        = [some 9223372036854775808, some (-7), some 18446744073709551616, some 20] := by
  have hid : (Value.ofNat 9223372036854775809).number? = some 9223372036854775808 := by
    have hunits : nearestUnits 9223372036854775809 = 4503599627370496 := by decide
    rw [Value.number?_ofNat_of_large (by norm_num) (by norm_num), hunits]
    norm_num
  have hlimit : (Value.ofNat 18446744073709551615).number? = some 18446744073709551616 := by
    have hunits : nearestUnits 18446744073709551615 = 9007199254740992 := by decide
    rw [Value.number?_ofNat_of_large (by norm_num) (by norm_num), hunits]
    norm_num
  have hoffset : Value.ofNat (natOfDigits ['2', '0']) = .int 20 := by decide
  obtain ⟨c, hc, hvalues⟩ : ∃ c,
      ({ dialect := .sqlite } : Config).statement .select oddItems = .ok c
        ∧ c.values = [.ofNat 9223372036854775809, .int (-7), .ofNat 18446744073709551615,
          .ofNat (natOfDigits ['2', '0'])] := ⟨_, rfl, rfl⟩
  refine ⟨c, hc, ?_⟩
  simp [hvalues, hid, hlimit, hoffset]

end Config

end QueryTree
