import Mathlib.Data.List.Forall2
import QueryTree.Proofs.Binding.Trace
import QueryTree.Token.Basic

/-!
# Texts in the place of values

A text in the place of a value is a column if it names one of a table that is in sight, and a value
to bind otherwise.

* `Source`, `sourcesOf`: tables, queries and joins by their names.
* `Mention`: a text in the place of a value, with the sources in sight there.
* `Mention.IsReference`: which texts are columns.
* `Mention.Marked`: what is written for a mention.
* `Scope.Sees`: a scope knows the names of the sources in sight, and no others.
* `Fragment.Places`, `PlacesAll`: fragments that write what they should for mentions.
-/

namespace QueryTree

/-! ## Sources and mentions -/

/-- A table or query by the names that it goes by. -/
structure Source where
  table : String
  alias? : Option String
deriving DecidableEq, Repr

/-- Whether a source goes by a name. -/
def Source.IsNamed (source : Source) (name : String) : Prop :=
  name = source.table ∨ source.alias? = some name

/-- The sources of a query: its own table and what it is joined with. -/
def sourcesOf (table : String) (alias? : Option String) (joins : List Join) : List Source :=
  ⟨table, alias?⟩ :: joins.map fun join => ⟨join.query.table, join.query.alias?⟩

/-- A text in the place of a value, with the sources of all queries around it. -/
structure Mention where
  text : String
  sources : List Source

namespace Mention

/-- A constant, or null. -/
def IsKeyword (m : Mention) : Prop :=
  Token.Constant.ofName? m.text ≠ none ∨ m.text = "null" ∨ m.text = "NULL"

theorem not_isKeyword {m : Mention} (hconstant : Token.Constant.ofName? m.text = none)
    (hnull : Token.isNull m.text = false) : ¬ m.IsKeyword := by
  rintro (h | h)
  · exact h hconstant
  · have htrue : Token.isNull m.text = true := by simpa [Token.isNull] using h
    cases hnull.symm.trans htrue

/-- Marked as a literal. -/
def IsLiteral (m : Mention) : Prop :=
  ∃ rest, m.text.toList = '#' :: rest

/-- Cut at the first dot, the text is a name of a source in sight and the name of a column. -/
def NamesColumn (m : Mention) : Prop :=
  ∃ name column, m.text.toList = name ++ '.' :: column ∧ '.' ∉ name
    ∧ column ≠ [] ∧ (∀ c ∈ column, Text.isAlphanumeric c = true ∨ c = '_' ∨ c = '$')
    ∧ ∃ source ∈ m.sources, source.IsNamed (String.ofList name)

/-- The mentions that are columns. -/
def IsReference (m : Mention) : Prop :=
  ¬ m.IsKeyword ∧ ¬ m.IsLiteral ∧ m.NamesColumn

/-- The text without the mark of a literal. -/
def content (m : Mention) : String :=
  (Token.literal? m.text).getD m.text

end Mention

/-! ## What is written -/

/-- An identifier: bound as a name or written in quotes. -/
def Mark.IsIdentifier (dialect : Dialect) (path : String) (mark : Mark) : Prop :=
  if dialect.bindsNames then ∃ n, mark = ⟨.nameSlot, some ⟨n, .identifier path⟩⟩
  else mark = ⟨.name (Text.pathParts path), none⟩

/-- A placeholder for a text. -/
def Mark.IsBound (text : String) (mark : Mark) : Prop :=
  ∃ n, mark = ⟨.slot n, some ⟨n, .text text⟩⟩

/-- A mention is written as an identifier exactly if it is a reference. Otherwise it is bound as a
text, unless it is a keyword, for which nothing is bound. -/
structure Mention.Marked (dialect : Dialect) (m : Mention) (mark : Mark) : Prop where
  isIdentifier_iff : mark.IsIdentifier dialect m.text ↔ m.IsReference
  isReference : ∀ path, mark.IsIdentifier dialect path → m.IsReference
  isBound : ¬ m.IsReference → ¬ m.IsKeyword → mark.IsBound m.content
  call?_eq : m.IsKeyword → mark.call? = none

variable {dialect : Dialect}

theorem Mark.IsBound.not_isIdentifier {text : String} {mark : Mark} (h : mark.IsBound text)
    (path : String) : ¬ mark.IsIdentifier dialect path := by
  obtain ⟨n, rfl⟩ := h
  unfold Mark.IsIdentifier
  split
  · rintro ⟨k, hk⟩
    cases hk
  · nofun

namespace Mention.Marked

variable {m : Mention} {mark : Mark}

theorem of_identifier (hm : m.IsReference) (h : mark.IsIdentifier dialect m.text) :
    m.Marked dialect mark where
  isIdentifier_iff := ⟨fun _ => hm, fun _ => h⟩
  isReference _ _ := hm
  isBound hnot := absurd hm hnot
  call?_eq hkeyword := absurd hkeyword hm.1

theorem of_bound (hm : ¬ m.IsReference) (hkeyword : ¬ m.IsKeyword) (h : mark.IsBound m.content) :
    m.Marked dialect mark where
  isIdentifier_iff := ⟨fun hid => absurd hid (h.not_isIdentifier _), fun href => absurd href hm⟩
  isReference path hid := absurd hid (h.not_isIdentifier path)
  isBound _ _ := h
  call?_eq hk := absurd hk hkeyword

theorem of_keyword (hm : m.IsKeyword) {t : Lexeme} (ht : ∀ parts, t ≠ .name parts) :
    m.Marked dialect ⟨t, none⟩ := by
  have hid : ∀ path, ¬ (⟨t, none⟩ : Mark).IsIdentifier dialect path := by
    intro path
    unfold Mark.IsIdentifier
    split
    · rintro ⟨k, hk⟩
      cases hk
    · rintro ⟨⟩
      exact ht _ rfl
  exact {
    isIdentifier_iff := ⟨fun h => absurd h (hid _), fun href => absurd hm href.1⟩
    isReference := fun path h => absurd h (hid path)
    isBound := fun _ hnot => absurd hm hnot
    call?_eq := fun _ => rfl }

end Mention.Marked

/-! ## Scopes -/

/-- A scope of the dialect that knows the names of the sources, and no others. -/
structure Scope.Sees (scope : Scope) (dialect : Dialect) (sources : List Source) : Prop where
  dialect_eq : scope.dialect = dialect
  knows_iff : ∀ name, scope.knows name = true ↔ ∃ source ∈ sources, source.IsNamed name

namespace Scope

theorem mem_namesOf {table name : String} {alias? : Option String} :
    name ∈ namesOf table alias? ↔ (⟨table, alias?⟩ : Source).IsNamed name := by
  simp [namesOf, Source.IsNamed]

theorem sees_outermost (dialect : Dialect) (model : Option Cipher.Settings) :
    (outermost dialect model).Sees dialect [] :=
  ⟨rfl, by simp [outermost, knows]⟩

namespace Sees

variable {scope : Scope} {sources : List Source}

theorem withQuery (h : scope.Sees dialect sources) (settings : Option Cipher.Settings) :
    (scope.withQuery settings).Sees dialect sources := by
  cases settings <;> exact ⟨h.1, h.2⟩

theorem withCall (h : scope.Sees dialect sources) (settings : Option Cipher.Settings) :
    (scope.withCall settings).Sees dialect sources := by
  cases settings <;> exact ⟨h.1, h.2⟩

theorem target (h : scope.Sees dialect sources) (table : String) (alias? : Option String)
    (settings : Option Cipher.Settings) :
    (scope.target table alias? settings).Sees dialect (⟨table, alias?⟩ :: sources) := by
  apply withQuery
  refine ⟨h.dialect_eq, fun name => ?_⟩
  have hname := h.knows_iff name
  simp only [knows, List.contains_iff_mem, List.mem_append, mem_namesOf, List.mem_cons,
    exists_eq_or_imp] at hname ⊢
  rw [hname, or_comm]

/-- Names that are in sight already add nothing. -/
theorem target_of_named (h : scope.Sees dialect sources) {table : String} {alias? : Option String}
    (hnames : ∀ name, (⟨table, alias?⟩ : Source).IsNamed name →
      ∃ source ∈ sources, source.IsNamed name) (settings : Option Cipher.Settings) :
    (scope.target table alias? settings).Sees dialect sources := by
  have htarget := h.target table alias? settings
  refine ⟨htarget.dialect_eq, fun name => ?_⟩
  rw [htarget.knows_iff, List.exists_mem_cons_iff]
  exact or_iff_right_of_imp (hnames name)

theorem enter (h : scope.Sees dialect sources) (table : String) (alias? : Option String)
    (joins : List Join) (settings : Option Cipher.Settings) :
    (scope.enter table alias? joins settings).Sees dialect
      (sourcesOf table alias? joins ++ sources) := by
  apply withQuery
  refine ⟨h.dialect_eq, fun name => ?_⟩
  have hname := h.knows_iff name
  have hjoined : name ∈ (joins.flatMap fun join => namesOf join.query.table join.query.alias?)
      ↔ ∃ source ∈ joins.map fun join => (⟨join.query.table, join.query.alias?⟩ : Source),
        source.IsNamed name := by
    simp [mem_namesOf]
  simp only [knows, List.contains_iff_mem, List.mem_append, mem_namesOf, hjoined, sourcesOf,
    List.cons_append, List.exists_mem_cons_iff, or_and_right, exists_or] at hname ⊢
  rw [hname, or_assoc, or_comm, or_assoc]

end Sees

end Scope

/-! ## Fragments -/

/-- Wherever the fragment is bound, its text holds what should be written for the mentions, in
their order. -/
def Fragment.Places (dialect : Dialect) (f : Fragment) (ms : List Mention) : Prop :=
  ∀ ⦃n : Nat⦄ ⦃mode mode' : Option Cipher.Mode⦄ ⦃marks : List Mark⦄ ⦃stored : List Call⦄,
    Traces dialect f n mode marks stored mode' →
      List.SublistForall₂ (Mention.Marked dialect) ms marks

/-- The same for fragments, one after the other. -/
inductive PlacesAll (dialect : Dialect) : List Fragment → List Mention → Prop
  | nil : PlacesAll dialect [] []
  | cons {f : Fragment} {fs : List Fragment} {ms ns : List Mention} :
      f.Places dialect ms → PlacesAll dialect fs ns → PlacesAll dialect (f :: fs) (ms ++ ns)

section Sublists

variable {α β : Type} {R : α → β → Prop}

theorem sublistForall₂_append {as as' : List α} {bs bs' : List β} (h : List.SublistForall₂ R as bs)
    (h' : List.SublistForall₂ R as' bs') : List.SublistForall₂ R (as ++ as') (bs ++ bs') := by
  obtain ⟨cs, hcs, hsub⟩ := List.sublistForall₂_iff.1 h
  obtain ⟨cs', hcs', hsub'⟩ := List.sublistForall₂_iff.1 h'
  exact List.sublistForall₂_iff.2 ⟨cs ++ cs', List.rel_append hcs hcs', hsub.append hsub'⟩

theorem sublistForall₂_of_sublist {as : List α} {bs bs' : List β} (h : List.SublistForall₂ R as bs)
    (hsub : bs.Sublist bs') : List.SublistForall₂ R as bs' := by
  obtain ⟨cs, hcs, hsub'⟩ := List.sublistForall₂_iff.1 h
  exact List.sublistForall₂_iff.2 ⟨cs, hcs, hsub'.trans hsub⟩

end Sublists

namespace Fragment

variable {f g : Fragment} {ms ns : List Mention}

theorem places_nil (f : Fragment) : f.Places dialect [] := fun _ _ _ _ _ _ => .nil

theorem places_fail (e : CompileError) (ms : List Mention) : (fail e).Places dialect ms := by
  intro n mode mode' marks stored h
  cases h

namespace Places

theorem congr (hf : f.Places dialect ms) (h : ms = ns) : f.Places dialect ns :=
  h ▸ hf

theorem append (hf : f.Places dialect ms) (hg : g.Places dialect ns) :
    (f ++ g).Places dialect (ms ++ ns) := by
  intro n mode mode' marks stored h
  cases h with
  | append h h' => exact sublistForall₂_append (hf h) (hg h')

/-- The right side has no mentions. -/
theorem before (hf : f.Places dialect ms) (g : Fragment) : (f ++ g).Places dialect ms := by
  simpa using hf.append (places_nil g)

/-- The left side has no mentions. -/
theorem after (f : Fragment) (hg : g.Places dialect ms) : (f ++ g).Places dialect ms :=
  (places_nil f).append hg

theorem crossed (hf : f.Places dialect ms) (hg : g.Places dialect ns) :
    (Fragment.crossed f g).Places dialect (ms ++ ns) := by
  intro n mode mode' marks stored h
  cases h with
  | crossed h h' => exact sublistForall₂_append (hf h') (hg h)

theorem enclosed (delimiters : Delimiters) (hf : f.Places dialect ms) :
    (Fragment.enclosed delimiters f).Places dialect ms := by
  intro n mode mode' marks stored h
  cases h with
  | enclosed h =>
      refine sublistForall₂_of_sublist (hf h) ?_
      exact (List.sublist_append_right _ _).trans (List.sublist_append_left _ _)

theorem led (v : Value) (hf : f.Places dialect ms) : (Fragment.led v f).Places dialect ms := by
  intro n mode mode' marks stored h
  cases h with
  | led h => exact (hf h).cons_right

theorem parens (hf : f.Places dialect ms) : (parens f).Places dialect ms :=
  hf.enclosed .parens

end Places

end Fragment

namespace PlacesAll

open Fragment

variable {f : Fragment} {fs : List Fragment} {ms ns : List Mention}

/-- A fragment without mentions in front. -/
theorem skip (f : Fragment) (h : PlacesAll dialect fs ms) : PlacesAll dialect (f :: fs) ms :=
  cons (places_nil f) h

theorem skips (gs : List Fragment) (h : PlacesAll dialect fs ms) :
    PlacesAll dialect (gs ++ fs) ms := by
  induction gs with
  | nil => exact h
  | cons g gs ih => exact ih.skip g

theorem none (fs : List Fragment) : PlacesAll dialect fs [] := by
  induction fs with
  | nil => exact .nil
  | cons f fs ih => exact ih.skip f

/-- A fragment in front of others without mentions. -/
theorem lead (hf : f.Places dialect ms) (fs : List Fragment) : PlacesAll dialect (f :: fs) ms := by
  simpa using cons hf (.none fs)

theorem join (separator : List Lexeme) (h : PlacesAll dialect fs ms) :
    (join separator fs).Places dialect ms := by
  induction h with
  | nil => exact places_nil _
  | @cons f fs ms ns hf hfs ih =>
      cases fs with
      | nil =>
          cases hfs
          simpa [Fragment.join] using hf
      | cons g fs => exact (hf.before _).append ih

theorem spaced (h : PlacesAll dialect fs ms) : (spaced fs).Places dialect ms :=
  h.join _

theorem commas (h : PlacesAll dialect fs ms) : (commas fs).Places dialect ms :=
  h.join _

theorem operated (h : PlacesAll dialect fs ms) (operator : String) :
    (operated operator fs).Places dialect ms :=
  h.join _

theorem call (h : PlacesAll dialect fs ms) (function : String) :
    (call function fs).Places dialect ms :=
  h.commas.parens.after _

theorem intersperse (separator : Fragment) (h : PlacesAll dialect fs ms) :
    PlacesAll dialect (fs.intersperse separator) ms := by
  induction h with
  | nil => exact .nil
  | @cons f fs ms ns hf hfs ih =>
      cases fs with
      | nil => exact cons hf hfs
      | cons g fs => exact cons hf (ih.skip separator)

end PlacesAll

/-! ## Texts -/

/-- A fragment that binds nothing has a trace without calls. -/
theorem Traces.eq_fixed {f : Fragment} {n : Nat} {mode mode' : Option Cipher.Mode}
    {marks : List Mark} {stored : List Call} (h : Traces dialect f n mode marks stored mode')
    {ts : List Lexeme} (hrun : ∀ b, f.run dialect b = (.ok ts, b)) : marks = fixed ts := by
  obtain ⟨rfl, hb⟩ := h.eq_of_run (hrun ⟨n, [], mode⟩)
  have hstored : stored = [] := by
    simpa using (congrArg Bindings.values hb).symm
  have hplaced : placed marks = [] := List.perm_nil.1 (hstored ▸ h.perm_placed)
  refine List.ext_getElem (by simp [fixed]) fun i hi _ => ?_
  have hcall : marks[i].call? = none :=
    List.filterMap_eq_nil_iff.1 hplaced _ (List.getElem_mem hi)
  simp [fixed, ← hcall]

/-- A keyword is written as it is. -/
theorem Mention.IsKeyword.places {m : Mention} (hm : m.IsKeyword) {f : Fragment} {t : Lexeme}
    {ts : List Lexeme} (ht : ∀ parts, t ≠ .name parts)
    (hrun : ∀ b, f.run dialect b = (.ok (t :: ts), b)) : f.Places dialect [m] := by
  intro n mode mode' marks stored h
  rw [h.eq_fixed hrun]
  exact .cons (.of_keyword hm ht) .nil

theorem Mention.IsKeyword.places_word {m : Mention} (hm : m.IsKeyword) (w : String) :
    (Fragment.word w).Places dialect [m] := by
  have hword : ∀ parts, Lexeme.word w ≠ .name parts := nofun
  exact hm.places hword fun _ => rfl

/-- A constant begins with something else than a name, and binds nothing. -/
theorem Token.Constant.exists_run (constant : Token.Constant) (dialect : Dialect) :
    ∃ t ts, (∀ parts, t ≠ .name parts)
      ∧ ∀ b, (constant.fragment dialect).run dialect b = (.ok (t :: ts), b) := by
  cases constant <;> cases dialect <;>
    (refine ⟨_, _, ?_, fun _ => rfl⟩
     nofun)

theorem Fragment.places_path {m : Mention} (hm : m.IsReference) :
    (path m.text).Places dialect [m] := by
  intro n mode mode' marks stored h
  cases h with
  | boundPath p n mode hd =>
      exact .cons (.of_identifier hm (by rw [Mark.IsIdentifier, if_pos hd]; exact ⟨_, rfl⟩)) .nil
  | path p n mode hd =>
      exact .cons (.of_identifier hm (by rw [Mark.IsIdentifier, if_neg (by simp [hd])])) .nil

theorem Fragment.places_text {m : Mention} (hm : ¬ m.IsReference) (hkeyword : ¬ m.IsKeyword) :
    (text m.content).Places dialect [m] := by
  intro n mode mode' marks stored h
  cases h with
  | value v n mode => exact .cons (.of_bound hm hkeyword ⟨_, rfl⟩) .nil

theorem Text.cutAt?_eq_some {sep : Char} {cs before after : List Char} :
    cutAt? sep cs = some (before, after) ↔ cs = before ++ sep :: after ∧ sep ∉ before := by
  induction cs generalizing before after with
  | nil => simp [cutAt?]
  | cons c cs ih =>
      rw [cutAt?]
      split
      · next hc =>
          subst hc
          cases before with
          | nil => simp
          | cons d before =>
              simp only [Option.some.injEq, Prod.mk.injEq, List.nil_eq, reduceCtorEq, false_and,
                List.cons_append, List.cons.injEq, List.mem_cons, not_or, false_iff]
              rintro ⟨⟨rfl, -⟩, hd, -⟩
              exact hd rfl
      · next hc =>
          cases before with
          | nil =>
              simp only [Option.map_eq_some_iff, List.nil_append, List.cons.injEq, hc, false_and,
                iff_false]
              rintro ⟨r, -, hr⟩
              cases hr
          | cons d before =>
              simp only [Option.map_eq_some_iff, Prod.exists, Prod.mk.injEq, List.cons.injEq, ih,
                List.cons_append, List.mem_cons, not_or]
              constructor
              · rintro ⟨before', after', ⟨rfl, hnot⟩, ⟨rfl, rfl⟩, rfl⟩
                exact ⟨⟨rfl, rfl⟩, fun h => hc h.symm, hnot⟩
              · rintro ⟨⟨rfl, rfl⟩, -, hnot⟩
                exact ⟨before, after, ⟨rfl, hnot⟩, ⟨rfl, rfl⟩, rfl⟩

theorem Text.isName_ofList {cs : List Char} :
    isName (String.ofList cs) = true
      ↔ cs ≠ [] ∧ ∀ c ∈ cs, isAlphanumeric c = true ∨ c = '_' ∨ c = '$' := by
  simp [isName, isNameChar, or_assoc]

/-- What counts as a reference in a scope names a column of a source that the scope sees. -/
theorem Token.isReference_iff {scope : Scope} {sources : List Source}
    (hs : scope.Sees dialect sources) (token : String) :
    Token.isReference scope token = true ↔ (⟨token, sources⟩ : Mention).NamesColumn := by
  unfold Token.isReference
  constructor
  · intro h
    split at h
    · next name column hcut =>
        rw [Bool.and_eq_true, hs.knows_iff, Text.isName_ofList] at h
        obtain ⟨hsource, hne, hname⟩ := h
        obtain ⟨htext, hdot⟩ := Text.cutAt?_eq_some.1 hcut
        exact ⟨name, column, htext, hdot, hne, hname, hsource⟩
    · cases h
  · rintro ⟨name, column, htext, hdot, hne, hname, hsource⟩
    simp only [Text.cutAt?_eq_some.2 ⟨htext, hdot⟩, Bool.and_eq_true, hs.knows_iff,
      Text.isName_ofList]
    exact ⟨hsource, hne, hname⟩

theorem Token.literal?_eq_some {token text : String} (h : Token.literal? token = some text) :
    ∃ rest, token.toList = '#' :: rest := by
  unfold Token.literal? at h
  split at h
  · next rest hrest => exact ⟨rest, hrest⟩
  · cases h

theorem Token.literal?_eq_none {token : String} (h : Token.literal? token = none) :
    ¬ ∃ rest, token.toList = '#' :: rest := by
  rintro ⟨rest, hrest⟩
  simp [Token.literal?, hrest] at h

/-- **A text in the place of a value is written as it should be.** -/
theorem Token.places_value {scope : Scope} {sources : List Source}
    (hs : scope.Sees dialect sources) (token : String) :
    (Token.value scope token).Places dialect [⟨token, sources⟩] := by
  let m : Mention := ⟨token, sources⟩
  unfold Token.value
  cases hconstant : Token.Constant.ofName? token with
  | some constant =>
      have hkeyword : m.IsKeyword := .inl (by simp [m, hconstant])
      obtain ⟨t, ts, ht, hrun⟩ := constant.exists_run dialect
      rw [← hs.dialect_eq] at hrun ⊢
      exact hkeyword.places ht hrun
  | none =>
      by_cases hnull : Token.isNull token = true
      · have hkeyword : m.IsKeyword := .inr (by simpa [Token.isNull] using hnull)
        rw [if_pos hnull]
        exact hkeyword.places_word "NULL"
      · have hkeyword : ¬ m.IsKeyword :=
          Mention.not_isKeyword hconstant (eq_false_of_ne_true hnull)
        rw [if_neg hnull]
        cases hliteral : Token.literal? token with
        | some text =>
            have hcontent : m.content = text := by simp [m, Mention.content, hliteral]
            rw [← hcontent]
            exact Fragment.places_text
              (fun href => href.2.1 (Token.literal?_eq_some hliteral)) hkeyword
        | none =>
            have hcontent : m.content = token := by simp [m, Mention.content, hliteral]
            by_cases href : Token.isReference scope token = true
            · rw [if_pos href]
              have hm : m.IsReference :=
                ⟨hkeyword, Token.literal?_eq_none hliteral, (Token.isReference_iff hs token).1 href⟩
              exact Fragment.places_path hm
            · rw [if_neg href]
              have hm : ¬ m.IsReference := fun hm =>
                href ((Token.isReference_iff hs token).2 hm.2.2)
              have hplaces : (Fragment.text m.content).Places dialect [m] :=
                Fragment.places_text hm hkeyword
              rwa [hcontent] at hplaces

end QueryTree
