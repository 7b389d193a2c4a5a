import Mathlib.Data.List.Forall2
import QueryTree.Proofs.Pattern.Munch

/-!
# Formats read back

A format is one flat text, and where its literals end is for its reader to find out. Percent formats
are read back as the pieces of their pattern. Sections in double quotes are, unless they hold a
backslash: the reader takes it for an escape, and it was not escaped.

* `Item`, `readPercent?`: percent formats, as they are read.
* `readPercent?_eq_some_iff`: a reading determines the format.
* `native_iff_readPercent`: the format of a pattern is the one that reads as its pieces.
* `readQuoted?`, `denoted?`: sections in double quotes, as they are read and what they denote.
* `quoted_survives_iff`: a section denotes its text exactly if there is no backslash in it.
-/

namespace QueryTree.DatePattern

/-- The directives that a pattern is cut into are those of the table. -/
theorem Munches.mem_table {table : List Directive} {cs : List Char} {pieces : List Piece}
    (h : Munches table cs pieces) : ∀ d, .directive d ∈ pieces → d ∈ table := by
  induction h with
  | nil => simp
  | closed _ _ ih => simpa using ih
  | unclosed _ => simp
  | directive _ hd _ ih =>
      intro d' hd'
      rcases List.mem_cons.1 hd' with heq | hd'
      · cases heq
        exact hd.1
      · exact ih d' hd'
  | plain _ _ _ ih => simpa using ih

theorem nativeAll_cons_ok {dialect : Dialect} {piece : Piece} {pieces : List Piece}
    {format : List Char} :
    nativeAll dialect (piece :: pieces) = .ok format ↔
      ∃ text rest, piece.native dialect = .ok text ∧ nativeAll dialect pieces = .ok rest
        ∧ format = text ++ rest := by
  rw [nativeAll]
  cases piece.native dialect <;> cases nativeAll dialect pieces <;>
    simp [bind, Except.bind, pure, Except.pure, eq_comm]

theorem native_ok {pattern format : String} {dialect : Dialect} :
    native pattern dialect = .ok format ↔
      nativeAll dialect (split pattern.toList) = .ok format.toList := by
  rw [native]
  cases nativeAll dialect (split pattern.toList) with
  | error e => simp [bind, Except.bind]
  | ok cs =>
      simp only [bind, Except.bind, pure, Except.pure, Except.ok.injEq]
      exact ⟨fun h => by rw [← h, String.toList_ofList], fun h => by rw [h, String.ofList_toList]⟩

/-! ## Percent formats -/

/-- What a percent format is read as, item by item. -/
inductive Item where
  | directive (letter : Char)
  | literal (c : Char)
deriving DecidableEq, Repr

/-- Reads a percent format. Two percent signs are a literal one, any other character after a percent
sign is a directive, and the last percent sign has to be followed by something. -/
def readPercent? : List Char → Option (List Item)
  | [] => some []
  | '%' :: '%' :: rest => (readPercent? rest).map (.literal '%' :: ·)
  | '%' :: x :: rest => (readPercent? rest).map (.directive x :: ·)
  | ['%'] => none
  | c :: rest => (readPercent? rest).map (.literal c :: ·)

namespace Item

/-- Whether an item is a directive. -/
def isDirective : Item → Bool
  | .directive _ => true
  | .literal _ => false

/-- The text of an item. -/
def text : Item → List Char
  | .directive x => ['%', x]
  | .literal c => escapePercent c

/-- A percent sign is not the letter of a directive. -/
def Proper : Item → Prop
  | .directive x => x ≠ '%'
  | .literal _ => True

theorem readPercent?_text_append {item : Item} (h : item.Proper) (rest : List Char) :
    readPercent? (item.text ++ rest) = (readPercent? rest).map (item :: ·) := by
  cases item with
  | directive x => simp [text, readPercent?, show x ≠ '%' from h]
  | literal c =>
      by_cases hc : c = '%'
      · subst hc
        simp [text, escapePercent, readPercent?]
      · simp [text, escapePercent, hc, readPercent?]

end Item

/-- **A reading determines the format**: it is the text of the items, one after the other. -/
theorem readPercent?_eq_some_iff {cs : List Char} {items : List Item} :
    readPercent? cs = some items ↔ cs = items.flatMap Item.text ∧ ∀ item ∈ items, item.Proper := by
  constructor
  · intro h
    fun_induction readPercent? cs generalizing items with
    | case1 =>
        cases h
        simp
    | case2 rest ih =>
        obtain ⟨items, hrest, rfl⟩ := Option.map_eq_some_iff.1 h
        obtain ⟨rfl, hproper⟩ := ih hrest
        exact ⟨by simp [Item.text, escapePercent], List.forall_mem_cons.2 ⟨trivial, hproper⟩⟩
    | case3 x rest hx ih =>
        obtain ⟨items, hrest, rfl⟩ := Option.map_eq_some_iff.1 h
        obtain ⟨rfl, hproper⟩ := ih hrest
        exact ⟨by simp [Item.text], List.forall_mem_cons.2 ⟨hx, hproper⟩⟩
    | case4 => cases h
    | case5 c rest _ hpair hlast ih =>
        have hc : c ≠ '%' := by
          intro hc
          cases rest with
          | nil => exact hlast hc rfl
          | cons x rest => exact hpair x rest hc rfl
        obtain ⟨items, hrest, rfl⟩ := Option.map_eq_some_iff.1 h
        obtain ⟨rfl, hproper⟩ := ih hrest
        exact ⟨by simp [Item.text, escapePercent, hc], List.forall_mem_cons.2 ⟨trivial, hproper⟩⟩
  · rintro ⟨rfl, hproper⟩
    induction items with
    | nil => rfl
    | cons item items ih =>
        rw [List.forall_mem_cons] at hproper
        rw [List.flatMap_cons, Item.readPercent?_text_append hproper.1, ih hproper.2,
          Option.map_some]

/-! ### Pieces as they are read -/

/-- Whether a piece is a directive. -/
def Piece.isDirective : Piece → Bool
  | .directive _ => true
  | .quoted _ | .plain _ => false

/-- What a piece is to be read as: the directive that the dialect has for it, or the literal
characters of a section or of a plain character. -/
inductive Piece.Reads (dialect : Dialect) : Piece → List Item → Prop
  | directive {d : Directive} {x : Char}
      (hd : (d.native dialect).map String.toList = some ['%', x]) :
      Reads dialect (.directive d) [.directive x]
  | quoted (text : List Char) : Reads dialect (.quoted text) (text.map .literal)
  | plain (c : Char) : Reads dialect (.plain c) [.literal c]

/-- In percent formats every directive is a percent sign and a letter. -/
theorem percent_letter {dialect : Dialect} (hdialect : usesPercent dialect = true) :
    ∀ d ∈ directives, ∀ text ∈ d.native dialect, ∃ x, x ≠ '%' ∧ text.toList = ['%', x] := by
  have hforms : ∀ d ∈ directives, ∀ text ∈ d.native dialect,
      text.toList.length = 2 ∧ text.toList.head? = some '%' ∧ text.toList.getLast? ≠ some '%' := by
    cases dialect with
    | postgresql => cases hdialect
    | mysql | sqlite => decide
  intro d hd text htext
  obtain ⟨hlength, hfirst, hlast⟩ := hforms d hd text htext
  obtain ⟨c, x, hcs⟩ := List.length_eq_two.1 hlength
  simp only [hcs, List.head?_cons, List.getLast?_cons_cons, List.getLast?_singleton, ne_eq,
    Option.some.injEq] at hfirst hlast
  exact ⟨x, hlast, by rw [hcs, hfirst]⟩

variable {dialect : Dialect}

namespace Piece

theorem Reads.native (hdialect : usesPercent dialect = true) {piece : Piece} {items : List Item}
    (h : piece.Reads dialect items) : piece.native dialect = .ok (items.flatMap Item.text) := by
  cases h with
  | @directive d x hd =>
      obtain ⟨text, htext, hx⟩ := Option.map_eq_some_iff.1 hd
      simp [Piece.native, htext, hx, Item.text]
  | quoted text => simp [Piece.native, hdialect, List.flatMap_map, Item.text]
  | plain c => simp [Piece.native, hdialect, Item.text]

theorem exists_reads (hdialect : usesPercent dialect = true) {piece : Piece}
    (hpiece : ∀ d, piece = .directive d → d ∈ directives) {text : List Char}
    (h : piece.native dialect = .ok text) :
    ∃ items, piece.Reads dialect items ∧ ∀ item ∈ items, item.Proper := by
  cases piece with
  | directive d =>
      cases hd : d.native dialect with
      | none => simp [Piece.native, hd] at h
      | some form =>
          obtain ⟨x, hx, hform⟩ := percent_letter hdialect d (hpiece d rfl) form hd
          exact ⟨_, .directive (by rw [hd, Option.map_some, hform]),
            by simpa [Item.Proper] using hx⟩
  | quoted text => exact ⟨_, .quoted text, by simp [Item.Proper]⟩
  | plain c => exact ⟨_, .plain c, by simp [Item.Proper]⟩

theorem Reads.countP_eq {piece : Piece} {items : List Item} (h : piece.Reads dialect items) :
    items.countP Item.isDirective = [piece].countP Piece.isDirective := by
  cases h with
  | directive hd => rfl
  | quoted text => simp [Item.isDirective, Piece.isDirective, List.countP_eq_zero]
  | plain c => rfl

end Piece

theorem nativeAll_of_reads (hdialect : usesPercent dialect = true) {pieces : List Piece}
    {items : List (List Item)} (h : List.Forall₂ (Piece.Reads dialect) pieces items) :
    nativeAll dialect pieces = .ok (items.flatten.flatMap Item.text) := by
  induction h with
  | nil => rfl
  | cons hpiece _ ih =>
      exact nativeAll_cons_ok.2 ⟨_, _, hpiece.native hdialect, ih, by simp⟩

theorem exists_reads_of_nativeAll (hdialect : usesPercent dialect = true) {pieces : List Piece}
    (hpieces : ∀ d, .directive d ∈ pieces → d ∈ directives) {format : List Char}
    (h : nativeAll dialect pieces = .ok format) :
    ∃ items, List.Forall₂ (Piece.Reads dialect) pieces items
      ∧ ∀ item ∈ items.flatten, item.Proper := by
  induction pieces generalizing format with
  | nil => exact ⟨[], .nil, by simp⟩
  | cons piece pieces ih =>
      obtain ⟨text, rest, hpiece, hrest, -⟩ := nativeAll_cons_ok.1 h
      obtain ⟨own, hown, hproper⟩ :=
        Piece.exists_reads hdialect (fun d hd => hpieces d (by simp [hd])) hpiece
      obtain ⟨items, hitems, hproper'⟩ :=
        ih (fun d hd => hpieces d (List.mem_cons_of_mem _ hd)) hrest
      exact ⟨own :: items, .cons hown hitems, List.forall_mem_append.2 ⟨hproper, hproper'⟩⟩

theorem countP_of_reads {pieces : List Piece} {items : List (List Item)}
    (h : List.Forall₂ (Piece.Reads dialect) pieces items) :
    items.flatten.countP Item.isDirective = pieces.countP Piece.isDirective := by
  induction h with
  | nil => rfl
  | @cons piece own pieces items hpiece _ ih =>
      rw [List.flatten_cons, List.countP_append, ih, hpiece.countP_eq,
        ← List.countP_append, List.singleton_append]

/-- **A percent format reads as its pattern.** The format of a pattern is the text that is read as
the directives of its tokens and the characters of its sections and of what is no token, in their
order. So it has as many directives as the pattern, and none is made up of literal characters. -/
theorem native_iff_readPercent (hdialect : dialect = .mysql ∨ dialect = .sqlite)
    (pattern format : String) :
    native pattern dialect = .ok format ↔
      ∃ pieces items, Munches directives pattern.toList pieces
        ∧ List.Forall₂ (Piece.Reads dialect) pieces items
        ∧ readPercent? format.toList = some items.flatten
        ∧ items.flatten.countP Item.isDirective = pieces.countP Piece.isDirective := by
  have hpercent : usesPercent dialect = true := by rcases hdialect with rfl | rfl <;> rfl
  rw [native_ok]
  constructor
  · intro h
    have hmunches := munches_split pattern.toList
    obtain ⟨items, hitems, hproper⟩ := exists_reads_of_nativeAll hpercent hmunches.mem_table h
    rw [nativeAll_of_reads hpercent hitems, Except.ok.injEq] at h
    exact ⟨_, items, hmunches, hitems, readPercent?_eq_some_iff.2 ⟨h.symm, hproper⟩,
      countP_of_reads hitems⟩
  · rintro ⟨pieces, items, hmunches, hitems, hread, -⟩
    rw [← hmunches.eq_split, nativeAll_of_reads hpercent hitems,
      (readPercent?_eq_some_iff.1 hread).1]

/-- A percent sign and a letter in a section, and a percent sign at the end. -/
theorem native_iff_readPercent_literal :
    native "[100%d]YY%" .mysql = .ok "100%%d%y%%"
      ∧ ∃ pieces items, Munches directives "[100%d]YY%".toList pieces
        ∧ List.Forall₂ (Piece.Reads .mysql) pieces items
        ∧ items.flatten = "100%d".toList.map .literal ++ [.directive 'y', .literal '%'] := by
  have hformat : native "[100%d]YY%" .mysql = .ok "100%%d%y%%" := by cbv
  obtain ⟨pieces, items, hmunches, hitems, hread, -⟩ :=
    (native_iff_readPercent (.inl rfl) "[100%d]YY%" "100%%d%y%%").1 hformat
  exact ⟨hformat, pieces, items, hmunches, hitems, (Option.some.inj hread).symm⟩

/-! ## Sections in double quotes -/

/-- Reads a text behind its opening quote, up to the next quote without a backslash in front of it;
a backslash makes the next character a literal one. Gives the text and what follows it. -/
def readQuoted? : List Char → Option (List Char × List Char)
  | [] => none
  | '"' :: rest => some ([], rest)
  | '\\' :: c :: rest => (readQuoted? rest).map fun (text, after) => (c :: text, after)
  | ['\\'] => none
  | c :: rest => (readQuoted? rest).map fun (text, after) => (c :: text, after)

/-- What a section denotes, if it ends at its own closing quote: a backslash is lost, and keeps what
follows it from being read. At the end it hides the closing quote. In front of a quote it makes a
literal of the backslash that was to hide that quote. -/
def denoted? : List Char → Option (List Char)
  | [] => some []
  | ['\\'] => none
  | '\\' :: '"' :: _ => none
  | '\\' :: c :: text => (denoted? text).map (c :: ·)
  | c :: text => (denoted? text).map (c :: ·)

theorem length_lt_of_readQuoted? {cs text after : List Char}
    (h : readQuoted? cs = some (text, after)) : after.length < cs.length := by
  fun_induction readQuoted? cs generalizing text after with
  | case1 => cases h
  | case2 rest =>
      cases h
      simp
  | case3 c rest ih =>
      obtain ⟨⟨text', after'⟩, hrest, heq⟩ := Option.map_eq_some_iff.1 h
      cases heq
      have := ih hrest
      simp only [List.length_cons]
      omega
  | case4 => cases h
  | case5 c rest _ _ _ ih =>
      obtain ⟨⟨text', after'⟩, hrest, heq⟩ := Option.map_eq_some_iff.1 h
      cases heq
      have := ih hrest
      simp only [List.length_cons]
      omega

/-- A character in front of what is read. -/
theorem map_cons_eq_some {c : Char} {read? : Option (List Char × List Char)}
    {text after : List Char} :
    (read?.map fun (text, after) => (c :: text, after)) = some (text, after) ↔
      ∃ text', read? = some (text', after) ∧ c :: text' = text := by
  cases read? with
  | none => simp
  | some read => simp [Prod.ext_iff, and_comm]

theorem readQuoted?_plain {c : Char} (hquote : c ≠ '"') (hescape : c ≠ '\\') (rest : List Char) :
    readQuoted? (c :: rest)
      = (readQuoted? rest).map fun (text, after) => (c :: text, after) := by
  rw [readQuoted?]
  · exact hquote
  · exact fun _ _ h _ => hescape h
  · exact fun h _ => hescape h

/-- **What a section denotes, if it ends at its own closing quote.** -/
theorem readQuoted?_escaped_iff {s text rest : List Char} :
    readQuoted? (s.flatMap escapeQuote ++ '"' :: rest) = some (text, rest) ↔
      denoted? s = some text := by
  fun_induction denoted? s generalizing text with
  | case1 => simp [readQuoted?]
  | case2 =>
      -- reading goes on behind the closing quote, so that less is left
      refine ⟨fun h => ?_, fun h => by cases h⟩
      obtain ⟨text', hrest, -⟩ := map_cons_eq_some.1 h
      exact absurd (length_lt_of_readQuoted? hrest) (Nat.lt_irrefl _)
  | case3 tail =>
      -- reading ends at a quote of the text, so that more is left
      have hread : readQuoted? (('\\' :: '"' :: tail).flatMap escapeQuote ++ '"' :: rest)
          = some (['\\'], tail.flatMap escapeQuote ++ '"' :: rest) := by
        simp [escapeQuote, readQuoted?]
      refine ⟨fun h => ?_, fun h => by cases h⟩
      rw [hread, Option.some.injEq, Prod.mk.injEq] at h
      have hlength := congrArg List.length h.2
      rw [List.length_append, List.length_cons] at hlength
      omega
  | case4 c s hquote ih =>
      have hescaped : escapeQuote c = [c] := if_neg hquote
      have hread : readQuoted? (('\\' :: c :: s).flatMap escapeQuote ++ '"' :: rest)
          = (readQuoted? (s.flatMap escapeQuote ++ '"' :: rest)).map
            fun (text, after) => (c :: text, after) := by
        simp [hescaped, show escapeQuote '\\' = ['\\'] from rfl, readQuoted?]
      rw [hread, map_cons_eq_some, Option.map_eq_some_iff]
      simp only [ih]
  | case5 c s hlast _ hpair ih =>
      have hescape : c ≠ '\\' := by
        intro hc
        cases s with
        | nil => exact hlast hc rfl
        | cons d s => exact hpair d s hc rfl
      have hread : readQuoted? ((c :: s).flatMap escapeQuote ++ '"' :: rest)
          = (readQuoted? (s.flatMap escapeQuote ++ '"' :: rest)).map
            fun (text, after) => (c :: text, after) := by
        by_cases hquote : c = '"'
        · simp [escapeQuote, hquote, readQuoted?]
        · simp [escapeQuote, hquote, readQuoted?_plain hquote hescape]
      rw [hread, map_cons_eq_some, Option.map_eq_some_iff]
      simp only [ih]

/-- What is denoted is no longer than the text, and shorter if there is a backslash in it. -/
theorem length_of_denoted? {s text : List Char} (h : denoted? s = some text) :
    text.length ≤ s.length ∧ ('\\' ∈ s → text.length < s.length) := by
  fun_induction denoted? s generalizing text with
  | case1 =>
      cases h
      simp
  | case2 => cases h
  | case3 tail => cases h
  | case4 c s hc ih =>
      obtain ⟨text, hs, rfl⟩ := Option.map_eq_some_iff.1 h
      have hle := (ih hs).1
      simp only [List.length_cons]
      omega
  | case5 c s hlast _ hpair ih =>
      obtain ⟨text, hs, rfl⟩ := Option.map_eq_some_iff.1 h
      obtain ⟨hle, hlt⟩ := ih hs
      refine ⟨Nat.succ_le_succ hle, fun hmem => Nat.succ_lt_succ (hlt ?_)⟩
      rcases List.mem_cons.1 hmem with hc | hmem
      · cases s with
        | nil => exact (hlast hc.symm rfl).elim
        | cons d s => exact (hpair d s hc.symm rfl).elim
      · exact hmem

/-- **A section denotes its text exactly if there is no backslash in it.** -/
theorem denoted?_eq_self_iff {s : List Char} : denoted? s = some s ↔ '\\' ∉ s := by
  constructor
  · exact fun h hmem => Nat.lt_irrefl _ ((length_of_denoted? h).2 hmem)
  · intro h
    induction s with
    | nil => rfl
    | cons c s ih =>
        rw [List.mem_cons, not_or] at h
        rw [denoted?, ih h.2, Option.map_some]
        · exact fun hc _ => h.1 hc.symm
        · exact fun _ hc _ => h.1 hc.symm
        · exact fun _ _ hc _ => h.1 hc.symm

/-! ### Sections of a pattern -/

theorem nativeAll_append {pieces pieces' : List Piece} {format format' : List Char}
    (h : nativeAll dialect pieces = .ok format) (h' : nativeAll dialect pieces' = .ok format') :
    nativeAll dialect (pieces ++ pieces') = .ok (format ++ format') := by
  induction pieces generalizing format with
  | nil =>
      cases h
      exact h'
  | cons piece pieces ih =>
      obtain ⟨text, rest, hpiece, hrest, rfl⟩ := nativeAll_cons_ok.1 h
      exact nativeAll_cons_ok.2 ⟨text, _, hpiece, ih hrest, List.append_assoc _ _ _⟩

/-- One dialect has a form for every directive. -/
theorem exists_nativeAll {pieces : List Piece}
    (hpieces : ∀ d, .directive d ∈ pieces → d ∈ directives) :
    ∃ format, nativeAll .postgresql pieces = .ok format := by
  have hforms : ∀ d ∈ directives, (d.native .postgresql).isSome := by decide
  induction pieces with
  | nil => exact ⟨[], rfl⟩
  | cons piece pieces ih =>
      obtain ⟨rest, hrest⟩ := ih fun d hd => hpieces d (List.mem_cons_of_mem _ hd)
      suffices ∃ text, piece.native .postgresql = .ok text by
        obtain ⟨text, htext⟩ := this
        exact ⟨_, nativeAll_cons_ok.2 ⟨text, rest, htext, hrest, rfl⟩⟩
      cases piece with
      | directive d =>
          obtain ⟨form, hform⟩ := Option.isSome_iff_exists.1 (hforms d (hpieces d (by simp)))
          exact ⟨form.toList, by simp [Piece.native, hform]⟩
      | quoted text => exact ⟨_, rfl⟩
      | plain c => exact ⟨_, rfl⟩

/-- **A section survives exactly if there is no backslash in it.** Every pattern has a format in
which a section that is not empty stands between double quotes, behind the format of what is before
it and in front of that of what is after it. Read from its opening quote, it ends at its closing
quote and denotes its text if and only if the text is free of backslashes. -/
theorem quoted_survives_iff {pattern : String} {before after : List Piece} {text : List Char}
    (hpieces : Munches directives pattern.toList (before ++ .quoted text :: after))
    (htext : text ≠ []) :
    ∃ left body right, nativeAll .postgresql before = .ok left
      ∧ Piece.native .postgresql (.quoted text) = .ok ('"' :: body ++ ['"'])
      ∧ nativeAll .postgresql after = .ok right
      ∧ native pattern .postgresql = .ok (String.ofList (left ++ '"' :: (body ++ '"' :: right)))
      ∧ (readQuoted? (body ++ '"' :: right) = some (text, right) ↔ '\\' ∉ text) := by
  have hmem := hpieces.mem_table
  obtain ⟨left, hleft⟩ := exists_nativeAll fun d hd => hmem d (List.mem_append_left _ hd)
  obtain ⟨right, hright⟩ := exists_nativeAll fun d hd =>
    hmem d (List.mem_append_right _ (List.mem_cons_of_mem _ hd))
  have hsection : Piece.native .postgresql (.quoted text)
      = .ok ('"' :: text.flatMap escapeQuote ++ ['"']) := by
    simp [Piece.native, usesPercent, quoteText, htext]
  refine ⟨left, text.flatMap escapeQuote, right, hleft, hsection, hright, ?_, ?_⟩
  · rw [native_ok, ← hpieces.eq_split, String.toList_ofList]
    refine nativeAll_append hleft (nativeAll_cons_ok.2 ⟨_, right, hsection, hright, ?_⟩)
    simp
  · rw [readQuoted?_escaped_iff, denoted?_eq_self_iff]

/-- A section with quotes survives; one that ends in a backslash swallows its closing quote. -/
theorem quoted_survives_iff_backslash :
    ∃ hours, Munches directives "[\"T\"]HH[a\\]".toList
        [.quoted "\"T\"".toList, .directive hours, .quoted "a\\".toList]
      ∧ (∃ body right, native "[\"T\"]HH[a\\]" .postgresql
          = .ok (String.ofList ('"' :: (body ++ '"' :: right)))
        ∧ readQuoted? (body ++ '"' :: right) = some ("\"T\"".toList, right))
      ∧ ∃ left body, native "[\"T\"]HH[a\\]" .postgresql
          = .ok (String.ofList (left ++ '"' :: (body ++ ['"'])))
        ∧ readQuoted? (body ++ ['"']) ≠ some ("a\\".toList, []) := by
  have hsplit : split "[\"T\"]HH[a\\]".toList
      = [.quoted "\"T\"".toList, .directive ⟨"HH", some "%H", some "HH24", some "%H"⟩,
        .quoted "a\\".toList] := by
    cbv
  have hpieces := hsplit ▸ munches_split "[\"T\"]HH[a\\]".toList
  refine ⟨_, hpieces, ?_, ?_⟩
  · obtain ⟨left, body, right, hleft, -, -, hnative, hiff⟩ :=
      @quoted_survives_iff _ [] _ _ hpieces (by decide)
    cases hleft
    exact ⟨body, right, hnative, hiff.2 (by decide)⟩
  · obtain ⟨left, body, right, -, -, hright, hnative, hiff⟩ :=
      @quoted_survives_iff _ [_, _] [] _ hpieces (by decide)
    cases hright
    exact ⟨left, body, hnative, fun h => hiff.1 h (by decide)⟩

end QueryTree.DatePattern
