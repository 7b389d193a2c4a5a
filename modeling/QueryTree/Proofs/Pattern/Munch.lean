import Mathlib.Data.List.TakeWhile
import QueryTree.DatePattern

/-!
# Patterns cut at their longest directives

A pattern is read from left to right, and at every point the longest directive of the table is
taken, in whatever order the table lists them.

* `Munches`: the pieces that a pattern is cut into, by any table.
* `directiveAt?_eq_some_iff`: the first directive that fits is the longest one.
* `munches_split`, `Munches.eq_split`: a pattern is cut into its pieces and in no other way.
* `native_of_munches`: the format of a pattern is that of its pieces, one after the other, and the
  first directive that the dialect lacks is refused.
-/

namespace QueryTree.DatePattern

/-! ## Pieces -/

/-- The longest directive of a table that a text begins with. -/
def Longest (table : List Directive) (cs : List Char) (d : Directive) : Prop :=
  d ∈ table ∧ d.symbol.toList <+: cs
    ∧ ∀ d' ∈ table, d'.symbol.toList <+: cs → d'.symbol.length ≤ d.symbol.length

/-- The pieces that a pattern is cut into: a section from a bracket to the first closing one, or to
the end if there is none; else the longest directive of the table; else a single character. -/
inductive Munches (table : List Directive) : List Char → List Piece → Prop
  | nil : Munches table [] []
  | closed {text rest : List Char} {pieces : List Piece} (htext : ']' ∉ text)
      (hrest : Munches table rest pieces) :
      Munches table ('[' :: (text ++ ']' :: rest)) (.quoted text :: pieces)
  | unclosed {text : List Char} (htext : ']' ∉ text) : Munches table ('[' :: text) [.quoted text]
  | directive {d : Directive} {rest : List Char} {pieces : List Piece}
      (hopen : (d.symbol.toList ++ rest).head? ≠ some '[')
      (hd : Longest table (d.symbol.toList ++ rest) d) (hrest : Munches table rest pieces) :
      Munches table (d.symbol.toList ++ rest) (.directive d :: pieces)
  | plain {c : Char} {rest : List Char} {pieces : List Piece} (hopen : c ≠ '[')
      (hnone : ∀ d ∈ table, ¬ d.symbol.toList <+: c :: rest)
      (hrest : Munches table rest pieces) : Munches table (c :: rest) (.plain c :: pieces)

theorem Longest.of_perm {table table' : List Directive} (h : table.Perm table') {cs : List Char}
    {d : Directive} (hd : Longest table cs d) : Longest table' cs d :=
  ⟨h.mem_iff.1 hd.1, hd.2.1, fun d' hd' => hd.2.2 d' (h.mem_iff.2 hd')⟩

/-- Only what is in the table matters, not where. -/
theorem Munches.of_perm {table table' : List Directive} (h : table.Perm table') {cs : List Char}
    {pieces : List Piece} (hcs : Munches table cs pieces) : Munches table' cs pieces := by
  induction hcs with
  | nil => exact .nil
  | closed htext _ ih => exact .closed htext ih
  | unclosed htext => exact .unclosed htext
  | directive hopen hd _ ih => exact .directive hopen (hd.of_perm h) ih
  | plain hopen hnone _ ih => exact .plain hopen (fun d hd => hnone d (h.mem_iff.2 hd)) ih

/-! ## The table -/

theorem directives_pairwise :
    directives.Pairwise fun d d' => d'.symbol.length ≤ d.symbol.length := by
  decide

theorem eq_of_symbol_eq : ∀ d ∈ directives, ∀ d' ∈ directives, d.symbol = d'.symbol → d = d' := by
  decide

theorem symbol_ne_empty : ∀ d ∈ directives, d.symbol ≠ "" := by
  decide

theorem symbol_not_open : ∀ d ∈ directives, d.symbol.toList.head? ≠ some '[' := by
  decide

theorem directiveAt?_eq_none_iff {cs : List Char} :
    directiveAt? cs = none ↔ ∀ d ∈ directives, ¬ d.symbol.toList <+: cs := by
  simp [directiveAt?]

theorem longest_of_directiveAt? {cs : List Char} {d : Directive} (h : directiveAt? cs = some d) :
    Longest directives cs d := by
  obtain ⟨hfits, before, after, htable, hbefore⟩ := List.find?_eq_some_iff_append.1 h
  have hsorted := directives_pairwise
  rw [htable, List.pairwise_append, List.pairwise_cons] at hsorted
  refine ⟨by simp [htable], List.isPrefixOf_iff_prefix.1 hfits, fun d' hd' hfits' => ?_⟩
  rw [htable, List.mem_append, List.mem_cons] at hd'
  rcases hd' with hd' | rfl | hd'
  · have hmiss := hbefore d' hd'
    simp [List.isPrefixOf_iff_prefix.2 hfits'] at hmiss
  · exact Nat.le_refl _
  · exact hsorted.2.1.1 d' hd'

/-- Two directives of the same length at one place have the same symbol. -/
theorem Longest.eq {cs : List Char} {d d' : Directive} (hd : Longest directives cs d)
    (hd' : Longest directives cs d') : d = d' := by
  obtain ⟨hmem, hfits, hlongest⟩ := hd
  obtain ⟨hmem', hfits', hlongest'⟩ := hd'
  have hlength : d.symbol.toList.length = d'.symbol.toList.length := by
    rw [String.length_toList, String.length_toList]
    exact Nat.le_antisymm (hlongest' d hmem hfits) (hlongest d' hmem' hfits')
  have hsymbol := (List.prefix_of_prefix_length_le hfits hfits' hlength.le).eq_of_length hlength
  exact eq_of_symbol_eq d hmem d' hmem' (String.toList_injective hsymbol)

/-- The first directive that fits is the longest one. -/
theorem directiveAt?_eq_some_iff {cs : List Char} {d : Directive} :
    directiveAt? cs = some d ↔ Longest directives cs d := by
  refine ⟨longest_of_directiveAt?, fun hd => ?_⟩
  cases hat : directiveAt? cs with
  | none => exact absurd hd.2.1 (directiveAt?_eq_none_iff.1 hat d hd.1)
  | some d' => rw [(longest_of_directiveAt? hat).eq hd]

/-! ## Cutting -/

theorem ne_closing_of_not_mem {text : List Char} (htext : ']' ∉ text) :
    ∀ c ∈ text, (c != ']') = true := by
  intro c hc
  simpa using fun h : c = ']' => htext (h ▸ hc)

theorem split_quoted {text rest : List Char} (htext : ']' ∉ text) :
    split ('[' :: (text ++ ']' :: rest)) = .quoted text :: split rest := by
  have hall := ne_closing_of_not_mem htext
  rw [split, List.takeWhile_append_of_pos hall, List.dropWhile_append_of_pos hall]
  simp

theorem split_unclosed {text : List Char} (htext : ']' ∉ text) :
    split ('[' :: text) = [.quoted text] := by
  have hall := ne_closing_of_not_mem htext
  rw [split, List.takeWhile_eq_self_iff.2 hall, List.dropWhile_eq_nil_iff.2 hall]
  simp [split]

theorem split_directive {d : Directive} {rest : List Char}
    (hd : Longest directives (d.symbol.toList ++ rest) d) :
    split (d.symbol.toList ++ rest) = .directive d :: split rest := by
  have hmem := hd.1
  cases hsymbol : d.symbol.toList with
  | nil => exact absurd (String.toList_eq_nil_iff.1 hsymbol) (symbol_ne_empty d hmem)
  | cons c tail =>
      have hopen : c ≠ '[' := by
        simpa [hsymbol] using symbol_not_open d hmem
      have hlength : d.symbol.length - 1 = tail.length := by
        rw [← String.length_toList, hsymbol, List.length_cons, Nat.add_sub_cancel]
      rw [← directiveAt?_eq_some_iff, hsymbol, List.cons_append] at hd
      rw [List.cons_append, split, hd]
      · simp only [hlength, List.drop_left]
      · exact hopen

theorem split_plain {c : Char} {rest : List Char} (hopen : c ≠ '[')
    (hnone : directiveAt? (c :: rest) = none) : split (c :: rest) = .plain c :: split rest := by
  rw [split, hnone]
  exact hopen

/-- **A pattern is cut into its pieces.** -/
theorem munches_split (cs : List Char) : Munches directives cs (split cs) := by
  induction h : cs.length using Nat.strong_induction_on generalizing cs with
  | h n ih =>
      subst h
      cases cs with
      | nil => simpa [split] using .nil
      | cons c rest =>
          by_cases hopen : c = '['
          · subst hopen
            by_cases hclosed : ']' ∈ rest
            · obtain ⟨text, after, rfl, htext⟩ := List.eq_append_cons_of_mem hclosed
              rw [split_quoted htext]
              exact .closed htext (ih after.length (by simp; omega) after rfl)
            · rw [split_unclosed hclosed]
              exact .unclosed hclosed
          · cases hat : directiveAt? (c :: rest) with
            | none =>
                rw [split_plain hopen hat]
                exact .plain hopen (directiveAt?_eq_none_iff.1 hat)
                  (ih rest.length (by simp) rest rfl)
            | some d =>
                have hd := directiveAt?_eq_some_iff.1 hat
                have hopen : (c :: rest).head? ≠ some '[' := by simpa using hopen
                obtain ⟨after, hafter⟩ := hd.2.1
                rw [← hafter] at hd hopen ih ⊢
                have hpos : d.symbol.length ≠ 0 := by simpa using symbol_ne_empty d hd.1
                rw [split_directive hd]
                refine .directive hopen hd (ih after.length ?_ after rfl)
                rw [List.length_append, String.length_toList]
                omega

/-- **A pattern is cut in no other way.** -/
theorem Munches.eq_split {cs : List Char} {pieces : List Piece}
    (h : Munches directives cs pieces) : pieces = split cs := by
  induction h with
  | nil => simp [split]
  | closed htext _ ih => rw [split_quoted htext, ih]
  | unclosed htext => rw [split_unclosed htext]
  | directive _ hd _ ih => rw [split_directive hd, ih]
  | plain hopen hnone _ ih => rw [split_plain hopen (directiveAt?_eq_none_iff.2 hnone), ih]

/-! ## Formats -/

/-- What a piece is written as: percent signs are doubled where they mark directives, and elsewhere
a section stands between double quotes. A dialect may have no form for a directive. -/
def Piece.form? (dialect : Dialect) : Piece → Option (List Char)
  | .directive d => (d.native dialect).map String.toList
  | .quoted text =>
    match dialect with
    | .mysql | .sqlite => some (text.flatMap fun c => if c = '%' then ['%', '%'] else [c])
    | .postgresql =>
      if text = [] then some []
      else some ('"' :: (text.flatMap fun c => if c = '"' then ['\\', '"'] else [c]) ++ ['"'])
  | .plain c =>
    match dialect with
    | .mysql | .sqlite => some (if c = '%' then ['%', '%'] else [c])
    | .postgresql => some [c]

/-- The directive of a piece, if the dialect has no form for it. -/
def Piece.foreign? (dialect : Dialect) : Piece → Option Directive
  | .directive d => if d.native dialect = none then some d else none
  | .quoted _ | .plain _ => none

/-- The error for a directive without a form. -/
def Directive.refusal (d : Directive) (dialect : Dialect) : CompileError :=
  .unsupported ("date token '" ++ d.symbol ++ "'") dialect

theorem Piece.native_eq (dialect : Dialect) (piece : Piece) :
    (∃ text, piece.form? dialect = some text ∧ piece.foreign? dialect = none
        ∧ piece.native dialect = .ok text)
      ∨ ∃ d, piece.form? dialect = none ∧ piece.foreign? dialect = some d
        ∧ piece.native dialect = .error (d.refusal dialect) := by
  cases piece with
  | directive d =>
      cases hd : d.native dialect with
      | some text => exact .inl ⟨text.toList, by simp [form?, foreign?, native, hd]⟩
      | none =>
          refine .inr ⟨d, by simp [form?, hd], by simp [foreign?, hd], ?_⟩
          rw [native, hd]
          rfl
  | quoted text =>
      refine .inl ?_
      cases dialect with
      | mysql | sqlite => exact ⟨_, rfl, rfl, rfl⟩
      | postgresql => cases text <;> exact ⟨_, rfl, rfl, rfl⟩
  | plain c => cases dialect <;> exact .inl ⟨_, rfl, rfl, rfl⟩

/-- The pieces have forms, which are written one after the other, or the first directive without
one is refused. -/
theorem nativeAll_eq (dialect : Dialect) (pieces : List Piece) :
    (∃ forms, pieces.mapM (Piece.form? dialect) = some forms
        ∧ pieces.findSome? (Piece.foreign? dialect) = none
        ∧ nativeAll dialect pieces = .ok forms.flatten)
      ∨ ∃ d, pieces.mapM (Piece.form? dialect) = none
        ∧ pieces.findSome? (Piece.foreign? dialect) = some d
        ∧ nativeAll dialect pieces = .error (d.refusal dialect) := by
  induction pieces with
  | nil => exact .inl ⟨[], rfl, rfl, rfl⟩
  | cons piece pieces ih =>
      rw [nativeAll]
      rcases piece.native_eq dialect with
        ⟨text, hform, hforeign, hnative⟩ | ⟨d, hform, hforeign, hnative⟩
      · rcases ih with ⟨forms, hforms, hnone, hrest⟩ | ⟨d, hforms, hsome, hrest⟩
        · refine .inl ⟨text :: forms, ?_, ?_, ?_⟩
          · simp [List.mapM_cons, hform, hforms]
          · simp [hforeign, hnone]
          · simp [hnative, hrest, bind, Except.bind, pure, Except.pure]
        · refine .inr ⟨d, ?_, ?_, ?_⟩
          · simp [List.mapM_cons, hform, hforms]
          · simp [hforeign, hsome]
          · simp [hnative, hrest, bind, Except.bind]
      · refine .inr ⟨d, ?_, ?_, ?_⟩
        · simp [List.mapM_cons, hform]
        · simp [hforeign]
        · simp [hnative, bind, Except.bind]

/-- **Patterns are translated by their longest directives.** Whatever the order of the table, a
pattern is cut in one way, and the format is what its pieces are written as, one after the other.
There is none exactly if the dialect lacks a directive of the pattern, and the first such one is
named. -/
theorem native_of_munches (table : List Directive) (htable : table.Perm directives)
    (pattern : String) (dialect : Dialect) :
    ∃ pieces, Munches table pattern.toList pieces
      ∧ (∀ others, Munches table pattern.toList others → others = pieces)
      ∧ (∀ format, native pattern dialect = .ok format ↔
        (pieces.mapM (Piece.form? dialect)).map List.flatten = some format.toList)
      ∧ ∀ e, native pattern dialect = .error e ↔
        ∃ d, pieces.findSome? (Piece.foreign? dialect) = some d ∧ e = d.refusal dialect := by
  refine ⟨split pattern.toList, (munches_split _).of_perm htable.symm,
    fun others h => (h.of_perm htable).eq_split, ?_⟩
  rcases nativeAll_eq dialect (split pattern.toList) with
    ⟨forms, hforms, hnone, hnative⟩ | ⟨d, hforms, hsome, hnative⟩
  · have heq : native pattern dialect = .ok (String.ofList forms.flatten) := by
      rw [native, hnative]
      rfl
    refine ⟨fun format => ?_, fun e => ?_⟩
    · rw [heq, hforms, Option.map_some, Except.ok.injEq, Option.some.injEq]
      exact ⟨fun h => by rw [← h, String.toList_ofList], fun h => by rw [h, String.ofList_toList]⟩
    · simp [heq, hnone]
  · have heq : native pattern dialect = .error (d.refusal dialect) := by
      rw [native, hnative]
      rfl
    refine ⟨fun format => ?_, fun e => ?_⟩
    · simp [heq, hforms]
    · simp [heq, hsome, eq_comm]

/-- Shorter directives first, a section that is never closed, and two directives that are
lacking. -/
theorem native_of_munches_reversed :
    directives.reverse.Perm directives
      ∧ (∃ pieces, Munches directives.reverse "dddd d [50%".toList pieces
        ∧ (pieces.mapM (Piece.form? .mysql)).map List.flatten = some "%W %e 50%%".toList)
      ∧ ∃ pieces d, Munches directives.reverse "YYYY Do MMMM".toList pieces
        ∧ pieces.findSome? (Piece.foreign? .sqlite) = some d
        ∧ Directive.refusal d .sqlite = .unsupported "date token 'Do'" .sqlite := by
  have hperm : directives.reverse.Perm directives := List.reverse_perm _
  have hformat : native "dddd d [50%" .mysql = .ok "%W %e 50%%" := by cbv
  have hrefused : native "YYYY Do MMMM" .sqlite
      = .error (.unsupported "date token 'Do'" .sqlite) := by cbv
  refine ⟨hperm, ?_, ?_⟩
  · obtain ⟨pieces, hpieces, -, hok, -⟩ :=
      native_of_munches directives.reverse hperm "dddd d [50%" .mysql
    exact ⟨pieces, hpieces, (hok _).1 hformat⟩
  · obtain ⟨pieces, hpieces, -, -, herror⟩ :=
      native_of_munches directives.reverse hperm "YYYY Do MMMM" .sqlite
    obtain ⟨d, hd, he⟩ := (herror _).1 hrefused
    exact ⟨pieces, d, hpieces, hd, he.symm⟩

end QueryTree.DatePattern
