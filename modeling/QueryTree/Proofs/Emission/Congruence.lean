import Mathlib.Data.List.Forall2
import QueryTree.Sql.Statement

/-!
# Congruences on fragments

Two fragments are often to be compared part by part: written in two dialects, or with two keys. A
relation that is kept by the ways to put fragments together is kept by everything that is written
for a single step of an expression.

* `Fragment.Congruence`: relations that are kept by enclosing and appending.
* `Congruence.join`, `call`, `clause`: putting fragments together.
* `Congruence.group`, `inList`, `compareWith`: conditions.
* `Fragment.FullCongruence`: relations that are kept by every constructor that binds a value of a
  caller.
* `FullCongruence.castTo`, `dateChange`, `jsonOptions`: steps of an expression.
-/

namespace QueryTree

open Fragment (word literal tokens join spaced commas operated words parens call)

/-- The functions that encrypt and decrypt where a block mode has to be in force. -/
def cipherFunctions : List String :=
  ["AES_ENCRYPT", "AES_DECRYPT"]

/-- Whether a lexeme is spelled alike in all dialects, encloses nothing and is no call of a
cipher. -/
def Lexeme.isOrdinary : Lexeme → Bool
  | .space | .comma | .literal _ => true
  | .word w => !cipherFunctions.contains w
  | .opening | .closing | .name _ | .slot _ | .nameSlot => false

theorem Lexeme.isOrdinary_word {w : String} (h : w ∉ cipherFunctions) :
    (Lexeme.word w).isOrdinary = true := by
  simpa [Lexeme.isOrdinary] using h

/-! ## Queries opened -/

/-- The scope inside a query. -/
def Query.scope (query : Query) (outer : Scope) : Scope :=
  outer.enter query.table query.alias? query.joins query.encryption

/-- The fragment of a query in its parts. -/
theorem Query.fragment_eq (query : Query) (outer : Scope) (build : Option (Scope → Fragment)) :
    query.fragment outer build
      = spaced ["SELECT",
          build.elim
            (if query.select.isEmpty then word "*"
              else commas (itemFragments (query.scope outer) query.select))
            (fun g => g (query.scope outer)),
          "FROM", tableFragment query.table query.alias?]
        ++ joinsFragment (query.alias?.getD query.table) (query.scope outer) query.joins
        ++ conditionClause "WHERE" query.junction
          (filterFragments query.junction (query.scope outer) query.filter)
        ++ listClause ["GROUP", "BY"]
          (keyFragments (query.scope outer) (outputAliases query.select) query.groupBy)
        ++ conditionClause "HAVING" query.junction
          (filterFragments query.junction (query.scope outer) query.having)
        ++ listClause ["ORDER", "BY"]
          (orderFragments (query.scope outer) (outputAliases query.select) query.orderBy)
        ++ limitFragment (query.scope outer).dialect query.limit query.offset := by
  obtain ⟨table, alias?, select, joins, filter, junction, groupBy, having, orderBy, limit, offset,
    encryption⟩ := query
  cases build <;> cases filter <;> cases having <;> rfl

namespace Fragment

/-- A relation that is kept by enclosing and appending, and that relates to itself what is written
alike everywhere. -/
structure Congruence (R : Fragment → Fragment → Prop) : Prop where
  empty : R .empty .empty
  token {t : Lexeme} : t.isOrdinary = true → R (.token t) (.token t)
  value (v : Value) : R (.value v) (.value v)
  path (p : String) : R (.path p) (.path p)
  fail (e : CompileError) : R (.fail e) (.fail e)
  enclosed (delimiters : Delimiters) {f g : Fragment} :
    R f g → R (.enclosed delimiters f) (.enclosed delimiters g)
  append {f f' g g' : Fragment} : R f f' → R g g' → R (f ++ g) (f' ++ g')

namespace Congruence

variable {R : Fragment → Fragment → Prop} {dialect : Dialect} {f f' g g' : Fragment}
  {fs gs : List Fragment}

/-! ## Putting fragments together -/

/-- Words are related to themselves, unless they call a cipher. -/
theorem word (h : Congruence R) {w : String} (hw : w ∉ cipherFunctions) :
    R (Fragment.word w) (Fragment.word w) :=
  h.token (Lexeme.isOrdinary_word hw)

theorem literal (h : Congruence R) (s : String) : R (Fragment.literal s) (Fragment.literal s) :=
  h.token rfl

theorem text (h : Congruence R) (s : String) : R (.text s) (.text s) :=
  h.value (.text s)

theorem halted (h : Congruence R) (e : CompileError) (hf : R f g) :
    R (f ++ .fail e) (g ++ .fail e) :=
  h.append hf (h.fail e)

theorem parens (h : Congruence R) (hf : R f g) : R (parens f) (parens g) :=
  h.enclosed .parens hf

theorem tokens (h : Congruence R) {ts : List Lexeme} (hts : ∀ t ∈ ts, t.isOrdinary = true) :
    R (tokens ts) (tokens ts) := by
  induction ts with
  | nil => exact h.empty
  | cons t ts ih =>
      exact h.append (h.token (hts t (by simp))) (ih fun u hu => hts u (by simp [hu]))

/-- Lists that are related item by item, with a separator between the items. -/
theorem join (h : Congruence R) {separator : List Lexeme}
    (hs : ∀ t ∈ separator, t.isOrdinary = true) (hfs : List.Forall₂ R fs gs) :
    R (join separator fs) (join separator gs) := by
  induction hfs with
  | nil => exact h.empty
  | cons hf hrest ih =>
      cases hrest with
      | nil => exact hf
      | cons _ _ => exact h.append (h.append hf (h.tokens hs)) ih

theorem spaced (h : Congruence R) (hfs : List.Forall₂ R fs gs) : R (spaced fs) (spaced gs) :=
  h.join (by simp [Lexeme.isOrdinary]) hfs

theorem commas (h : Congruence R) (hfs : List.Forall₂ R fs gs) : R (commas fs) (commas gs) :=
  h.join (by simp [Lexeme.isOrdinary]) hfs

theorem operated (h : Congruence R) {operator : String} (ho : operator ∉ cipherFunctions)
    (hfs : List.Forall₂ R fs gs) : R (operated operator fs) (operated operator gs) :=
  h.join (by simp [Lexeme.isOrdinary, ho]) hfs

theorem words (h : Congruence R) {ws : List String} (hws : ∀ w ∈ ws, w ∉ cipherFunctions) :
    R (words ws) (words ws) := by
  refine h.spaced ?_
  induction ws with
  | nil => exact .nil
  | cons w ws ih => exact .cons (h.word (hws w (by simp))) (ih fun u hu => hws u (by simp [hu]))

/-- **Calls of one function are related if their arguments are.** -/
theorem call (h : Congruence R) {function : String} (hw : function ∉ cipherFunctions)
    (hfs : List.Forall₂ R fs gs) : R (call function fs) (call function gs) :=
  h.append (h.word hw) (h.parens (h.commas hfs))

theorem cast (h : Congruence R) {type : List String} (ht : ∀ w ∈ type, w ∉ cipherFunctions)
    (hf : R f g) : R (f.cast type) (g.cast type) :=
  h.append (h.word (by decide))
    (h.parens (h.spaced (.cons hf (.cons (h.word (by decide)) (.cons (h.words ht) .nil)))))

/-- Clauses with the same words are related if their bodies are. -/
theorem clause (h : Congruence R) {keywords : List String}
    (hk : ∀ w ∈ keywords, w ∉ cipherFunctions) (hf : R f g) :
    R (clause keywords f) (clause keywords g) :=
  h.append (h.token rfl) (h.spaced (.cons (h.words hk) (.cons hf .nil)))

/-- Lists that are related are both empty or neither is, so that both clauses are there. -/
theorem listClause (h : Congruence R) {keywords : List String}
    (hk : ∀ w ∈ keywords, w ∉ cipherFunctions) (hfs : List.Forall₂ R fs gs) :
    R (listClause keywords fs) (listClause keywords gs) := by
  cases hfs with
  | nil => exact h.empty
  | cons hf hrest => exact h.clause hk (h.commas (.cons hf hrest))

/-! ## Conditions -/

/-- Connectives call no cipher. -/
theorem keyword_not_mem (junction : Junction) : junction.keyword ∉ cipherFunctions := by
  cases junction <;> decide

/-- Comparisons call no cipher. -/
theorem comparator_words_not_mem (comparator : Comparator) :
    ∀ w ∈ comparator.words, w ∉ cipherFunctions := by
  cases comparator <;> decide

theorem chain (h : Congruence R) (junction : Junction) (hfs : List.Forall₂ R fs gs) :
    R (junction.chain fs) (junction.chain gs) :=
  h.operated (keyword_not_mem junction) hfs

/-- Several conditions are put in parentheses on both sides. -/
theorem nest (h : Congruence R) (junction : Junction) (hfs : List.Forall₂ R fs gs) :
    R (junction.nest fs) (junction.nest gs) := by
  cases hfs with
  | nil => exact h.empty
  | cons hf hrest =>
      cases hrest with
      | nil => exact hf
      | cons hg hrest => exact h.parens (h.chain junction (.cons hf (.cons hg hrest)))

/-- **Conditions joined by a connective are related if they are one by one.** -/
theorem group (h : Congruence R) (junction : Junction) (hfs : List.Forall₂ R fs gs) :
    R (junction.group fs) (junction.group gs) := by
  cases hfs with
  | nil => exact h.fail _
  | cons hf hrest => exact h.nest junction (.cons hf hrest)

/-- A clause with conditions that are related is there on both sides or on neither. -/
theorem conditionClause (h : Congruence R) {keyword : String} (hk : keyword ∉ cipherFunctions)
    (junction : Junction) (hfs : List.Forall₂ R fs gs) :
    R (conditionClause keyword junction fs) (conditionClause keyword junction gs) := by
  cases hfs with
  | nil => exact h.empty
  | cons hf hrest => exact h.clause (by simpa using hk) (h.chain junction (.cons hf hrest))

theorem leftOperand (h : Congruence R) {parent parent' : Option Fragment}
    (hp : Option.Rel R parent parent') (comparison : String) :
    R (leftOperand parent comparison) (leftOperand parent' comparison) := by
  cases hp with
  | none => exact h.fail _
  | some hf => exact hf

/-- Columns between bounds. -/
theorem betweenFragment (h : Congruence R) {parent parent' : Option Fragment}
    (hp : Option.Rel R parent parent') (hf : R f f') (hg : R g g') :
    R (betweenFragment parent f g) (betweenFragment parent' f' g') :=
  h.spaced (.cons (h.leftOperand hp _) (.cons (h.word (by decide)) (.cons hf
    (.cons (h.word (by decide)) (.cons hg .nil)))))

theorem equals (h : Congruence R) (hl : R f f') (hr : R g g') : R (equals f g) (equals f' g') :=
  h.spaced (.cons hl (.cons (h.word (by decide)) (.cons hr .nil)))

theorem isNullTest (h : Congruence R) (hf : R f g) : R (isNullTest f) (isNullTest g) :=
  h.spaced (.cons hf (.cons (h.word (by decide)) (.cons (h.word (by decide)) .nil)))

theorem isNotNullTest (h : Congruence R) (hf : R f g) : R (isNotNullTest f) (isNotNullTest g) :=
  h.spaced (.cons hf (.cons (h.word (by decide)) (.cons (h.word (by decide))
    (.cons (h.word (by decide)) .nil))))

/-- Lists that are related are both empty, with the same error, or neither is. -/
theorem inList (h : Congruence R) (field : String) (comparator : Comparator) (hl : R f g)
    (hfs : List.Forall₂ R fs gs) :
    R (inList field comparator f fs) (inList field comparator g gs) := by
  cases hfs with
  | nil => exact h.fail _
  | cons hf hrest =>
      exact h.spaced (.cons hl (.cons (h.words (comparator_words_not_mem comparator))
        (.cons (h.parens (h.commas (.cons hf hrest))) .nil)))

/-! ## Parts of a query -/

theorem tableFragment (h : Congruence R) (table : String) (alias? : Option String) :
    R (tableFragment table alias?) (tableFragment table alias?) := by
  cases alias? with
  | none => exact h.path table
  | some name =>
      exact h.spaced (.cons (h.path table) (.cons (h.word (by decide)) (.cons (h.path name) .nil)))

theorem joinKind_words_not_mem (kind : JoinKind) : ∀ w ∈ kind.words, w ∉ cipherFunctions := by
  cases kind <;> decide

theorem sortOrder_keyword_not_mem (order : SortOrder) : order.keyword ∉ cipherFunctions := by
  cases order <;> decide

theorem shared (h : Congruence R) (columns : List String) :
    List.Forall₂ R (columns.map Fragment.path) (columns.map Fragment.path) := by
  induction columns with
  | nil => exact .nil
  | cons column columns ih => exact .cons (h.path column) ih

/-- The clauses of a query in their order. -/
theorem clauses (h : Congruence R) {items items' table table' joins joins' : Fragment}
    {limits limits' : Fragment}
    {filtered filtered' keys keys' kept kept' order order' : List Fragment} (junction : Junction)
    (hitems : R items items') (htable : R table table') (hjoins : R joins joins')
    (hfiltered : List.Forall₂ R filtered filtered') (hkeys : List.Forall₂ R keys keys')
    (hkept : List.Forall₂ R kept kept') (horder : List.Forall₂ R order order')
    (hlimits : R limits limits') :
    R (Fragment.spaced ["SELECT", items, "FROM", table] ++ joins
        ++ QueryTree.conditionClause "WHERE" junction filtered
        ++ QueryTree.listClause ["GROUP", "BY"] keys
        ++ QueryTree.conditionClause "HAVING" junction kept
        ++ QueryTree.listClause ["ORDER", "BY"] order ++ limits)
      (Fragment.spaced ["SELECT", items', "FROM", table'] ++ joins'
        ++ QueryTree.conditionClause "WHERE" junction filtered'
        ++ QueryTree.listClause ["GROUP", "BY"] keys'
        ++ QueryTree.conditionClause "HAVING" junction kept'
        ++ QueryTree.listClause ["ORDER", "BY"] order' ++ limits') := by
  have hhead : R (Fragment.spaced ["SELECT", items, "FROM", table])
      (Fragment.spaced ["SELECT", items', "FROM", table']) :=
    h.spaced (.cons (h.word (by decide)) (.cons hitems (.cons (h.word (by decide))
      (.cons htable .nil))))
  refine h.append (h.append (h.append (h.append (h.append (h.append hhead hjoins) ?_) ?_) ?_) ?_)
    hlimits
  · exact h.conditionClause (by decide) junction hfiltered
  · exact h.listClause (by decide) hkeys
  · exact h.conditionClause (by decide) junction hkept
  · exact h.listClause (by decide) horder

end Congruence

/-! ## Everything but ciphers -/

/-- A congruence that is kept by all constructors that bind a value of a caller. -/
structure FullCongruence (R : Fragment → Fragment → Prop) : Prop extends Congruence R where
  name (parts : List String) : R (.token (.name parts)) (.token (.name parts))
  outputName (name : String) : R (.outputName name) (.outputName name)
  crossed {f f' g g' : Fragment} : R f f' → R g g' → R (.crossed f g) (.crossed f' g')
  led (v : Value) {f g : Fragment} : R f g → R (.led v f) (.led v g)

namespace FullCongruence

variable {R : Fragment → Fragment → Prop} {dialect : Dialect} {f f' g g' : Fragment}
  {fs gs : List Fragment}

/-! ## Texts of callers -/

/-- Constants are spelled by the dialect alone. -/
theorem constant (h : FullCongruence R) (constant : Token.Constant) :
    R (constant.fragment dialect) (constant.fragment dialect) := by
  have hnow : R (call "DATETIME" [Fragment.literal "now"])
      (call "DATETIME" [Fragment.literal "now"]) :=
    h.call (by decide) (.cons (h.literal "now") .nil)
  cases constant with
  | pi => exact h.call (by decide) .nil
  | currentDate => exact h.word (by decide)
  | currentTime => exact h.word (by decide)
  | currentTimestamp => exact h.word (by decide)
  | now =>
      cases dialect with
      | sqlite => exact hnow
      | mysql => exact h.call (by decide) .nil
      | postgresql => exact h.call (by decide) .nil
  | localTime =>
      cases dialect with
      | sqlite => exact h.call (by decide) (.cons (h.literal _) (.cons (h.literal _) .nil))
      | mysql => exact h.word (by decide)
      | postgresql => exact h.word (by decide)
  | localTimestamp =>
      cases dialect with
      | sqlite => exact h.call (by decide) (.cons (h.literal _) (.cons (h.literal _) .nil))
      | mysql => exact h.word (by decide)
      | postgresql => exact h.word (by decide)
  | utcTimestamp =>
      cases dialect with
      | sqlite => exact hnow
      | mysql => exact h.call (by decide) .nil
      | postgresql =>
          exact h.parens (h.spaced (.cons (h.call (by decide) .nil) (.cons (h.word (by decide))
            (.cons (h.word (by decide)) (.cons (h.word (by decide)) (.cons (h.literal _) .nil))))))

theorem star (h : FullCongruence R) (token : String) : R (Token.star token) (Token.star token) := by
  unfold Token.star
  split
  · exact h.word (by decide)
  · split
    · split
      · exact h.append (h.name _) (h.word (by decide))
      · exact h.fail _
    · exact h.fail _

theorem column (h : FullCongruence R) (scope : Scope) (token : String) :
    R (Token.column scope token) (Token.column scope token) := by
  unfold Token.column
  split
  · exact h.constant _
  · split
    · exact h.star token
    · split
      · exact h.word (by decide)
      · split
        · exact h.text _
        · split
          · exact h.text _
          · exact h.path _

/-- **A text of a caller is related to itself**, wherever it stands. -/
theorem placeToken (h : FullCongruence R) (place : Place) (scope : Scope) (token : String) :
    R (place.token scope token) (place.token scope token) := by
  cases place with
  | column => exact h.column scope token
  | value =>
      simp only [Place.token, Token.value]
      split
      · exact h.constant _
      · split
        · exact h.word (by decide)
        · split
          · exact h.text _
          · split
            · exact h.path _
            · exact h.text _

theorem sortKey (h : FullCongruence R) (scope : Scope) (outputs : List String) (token : String) :
    R (sortKey scope outputs token) (sortKey scope outputs token) := by
  unfold QueryTree.sortKey
  split
  · exact h.path token
  · exact h.column scope token

theorem orderFragments (h : FullCongruence R) (scope : Scope) (outputs : List String)
    (keys : List (String × SortOrder)) :
    List.Forall₂ R (orderFragments scope outputs keys) (orderFragments scope outputs keys) := by
  induction keys with
  | nil => exact .nil
  | cons key keys ih =>
      refine .cons (h.spaced (.cons (h.sortKey scope outputs key.1) (.cons (h.word ?_) .nil))) ih
      exact Congruence.sortOrder_keyword_not_mem key.2

/-! ## Comparisons, limits and aliases -/

theorem textOperand (h : FullCongruence R) (dialect : Dialect) (hf : R f g) :
    R (dialect.textOperand f) (dialect.textOperand g) := by
  cases dialect with
  | postgresql => exact h.cast (by decide) hf
  | mysql => exact hf
  | sqlite => exact hf

theorem concatenate (h : FullCongruence R) (hfs : List.Forall₂ R fs gs) :
    R (dialect.concatenate fs) (dialect.concatenate gs) := by
  cases dialect with
  | mysql => exact h.call (by decide) hfs
  | postgresql => exact h.operated (by decide) hfs
  | sqlite => exact h.operated (by decide) hfs

/-- **Comparisons by an operator are related if both sides are.** -/
theorem compareWith (h : FullCongruence R) (comparator : Comparator) (hf : R f f') (hg : R g g') :
    R (compareWith dialect comparator f g) (compareWith dialect comparator f' g') := by
  refine h.spaced (.cons hf (.cons (h.words (Congruence.comparator_words_not_mem comparator))
    (.cons ?_ .nil)))
  cases comparator.wildcards with
  | none => exact hg
  | some ends =>
      obtain ⟨opened, closed⟩ := ends
      have htext := h.textOperand dialect hg
      have hwild := h.literal "%"
      refine h.concatenate ?_
      cases opened <;> cases closed
      · exact .cons htext .nil
      · exact .cons htext (.cons hwild .nil)
      · exact .cons hwild (.cons htext .nil)
      · exact .cons hwild (.cons htext (.cons hwild .nil))

theorem limitFragment (h : FullCongruence R) (limit offset : Option Nat) :
    R (limitFragment dialect limit offset) (limitFragment dialect limit offset) := by
  have hcount : ∀ {keyword : String}, keyword ∉ cipherFunctions → ∀ n : Nat,
      R (QueryTree.clause [keyword] (.value (.ofNat n)))
        (QueryTree.clause [keyword] (.value (.ofNat n))) :=
    fun hk n => h.clause (by simpa using hk) (h.value _)
  refine h.append ?_ ?_
  · split
    · exact hcount (by decide) _
    · split
      · next unbounded hu =>
          refine h.clause (by decide) (h.word ?_)
          cases dialect <;> cases hu <;> decide
      · exact h.empty
    · exact h.empty
  · split
    · exact hcount (by decide) _
    · exact h.empty

theorem aliased (h : FullCongruence R) (alias? : Option String) (hf : R f g) :
    R (aliased alias? f) (aliased alias? g) := by
  cases alias? with
  | none => exact hf
  | some name =>
      exact h.spaced (.cons hf (.cons (h.word (by decide)) (.cons (h.outputName name) .nil)))

/-- A value wrapper that is compared with what it stands under is bound crosswise. -/
theorem wrapperEntry (h : FullCongruence R) {parent parent' : Option Fragment}
    (hp : Option.Rel R parent parent') (compared : Bool) (hf : R f g) :
    R (wrapperEntry parent compared f) (wrapperEntry parent' compared g) := by
  cases hp with
  | none => exact hf
  | some hleft =>
      simp only [QueryTree.wrapperEntry]
      split
      · exact hf
      · exact h.crossed hleft (h.append (h.tokens (by decide)) hf)

/-! ## Steps of an expression -/

/-- Conversions to one type, or the same error. -/
theorem castTo (h : FullCongruence R) (type : CastType) (hf : R f g) :
    R (dialect.castTo f type) (dialect.castTo g type) := by
  unfold Dialect.castTo
  split
  · next words hwords =>
      refine h.cast ?_ hf
      cases dialect <;> cases type <;> cases hwords <;> decide
  · exact h.halted _ hf

theorem castOptional (h : FullCongruence R) (dialect : Dialect) (type : Option CastType)
    (hf : R f g) :
    R (dialect.castOptional f type) (dialect.castOptional g type) := by
  cases type with
  | none => exact hf
  | some type => exact h.castTo type hf

/-- Texts that are related, with a separator between them if there is one. -/
theorem concatFragment (h : FullCongruence R) (dialect : Dialect) (separator : Option String)
    (hfs : List.Forall₂ R fs gs) :
    R (concatFragment dialect separator fs) (concatFragment dialect separator gs) := by
  unfold QueryTree.concatFragment
  split
  · next separator =>
      refine h.parens (h.operated (by decide) ?_)
      induction hfs with
      | nil => exact .nil
      | cons hf hrest ih =>
          cases hrest with
          | nil => exact .cons hf .nil
          | cons _ _ => exact .cons hf (.cons (h.text separator) ih)
  · exact h.parens (h.operated (by decide) hfs)
  · exact h.call (by decide) (.cons (h.textOperand _ (h.text _)) hfs)
  · exact h.call (by decide) hfs

theorem rounding (h : FullCongruence R) (rounding : Rounding) (hf : R f g) :
    R (rounding.apply dialect f) (rounding.apply dialect g) := by
  cases rounding with
  | ceil => exact h.call (by decide) (.cons hf .nil)
  | floor => exact h.call (by decide) (.cons hf .nil)
  | round => exact h.call (by decide) (.cons hf .nil)
  | digits n =>
      cases dialect with
      | postgresql =>
          exact h.call (by decide) (.cons (h.cast (by decide) hf) (.cons (h.value _) .nil))
      | mysql => exact h.call (by decide) (.cons hf (.cons (h.value _) .nil))
      | sqlite => exact h.call (by decide) (.cons hf (.cons (h.value _) .nil))

theorem aggregated (h : FullCongruence R) (kind : AggregateKind) (distinct : Bool) (hf : R f g) :
    R (call kind.function [if distinct then Fragment.spaced ["DISTINCT", f] else f])
      (call kind.function [if distinct then Fragment.spaced ["DISTINCT", g] else g]) := by
  refine h.call (by cases kind <;> decide) (.cons ?_ .nil)
  split
  · exact h.spaced (.cons (h.word (by decide)) (.cons hf .nil))
  · exact hf

theorem encoding (h : FullCongruence R) (charset : Charset) (hf : R f g) :
    R (Fragment.word "CONVERT" ++ Fragment.parens (Fragment.spaced [f, "USING", charset.name]))
      (Fragment.word "CONVERT"
        ++ Fragment.parens (Fragment.spaced [g, "USING", charset.name])) := by
  have hcharset : charset.name ∉ cipherFunctions := by cases charset <;> decide
  exact h.append (h.word (by decide))
    (h.parens (h.spaced (.cons hf (.cons (h.word (by decide)) (.cons (h.word hcharset) .nil)))))

/-! ## JSON values -/

theorem jsonExtract (h : FullCongruence R) (hf : R f f') (hg : R g g') :
    R (dialect.jsonExtract f g) (dialect.jsonExtract f' g') := by
  cases dialect with
  | postgresql =>
      exact h.parens (h.operated (by decide)
        (.cons (h.cast (by decide) hf) (.cons (h.cast (by decide) hg) .nil)))
  | mysql => exact h.call (by decide) (.cons hf (.cons hg .nil))
  | sqlite => exact h.call (by decide) (.cons hf (.cons hg .nil))

/-- **A path into related JSON values**, and what is taken from there. -/
theorem jsonOptions (h : FullCongruence R) (options : JsonOptions) (hf : R f g) :
    R (options.apply dialect f) (options.apply dialect g) := by
  obtain ⟨isArray, aggregate, extract, contains⟩ := options
  -- the test comes after the extraction, so it is settled for any fragment first
  have htested : ∀ {f g}, R f g →
      R (JsonOptions.apply dialect ⟨isArray, aggregate, none, contains⟩ f)
        (JsonOptions.apply dialect ⟨isArray, aggregate, none, contains⟩ g) := by
    intro f g hf
    cases contains with
    | none => exact hf
    | some candidate =>
        have hc := h.text candidate.compact
        cases dialect with
        | mysql => exact h.call (by decide) (.cons hf (.cons hc .nil))
        | postgresql =>
            exact h.operated (by decide)
              (.cons (h.cast (by decide) hf) (.cons (h.cast (by decide) hc) .nil))
        | sqlite => exact h.halted _ (h.append hf hc)
  cases extract with
  | none => exact htested hf
  | some path => exact htested (h.jsonExtract hf (h.text _))

theorem collect (h : FullCongruence R) (options : JsonOptions) (hf : R f g) :
    R (options.collect dialect f) (options.collect dialect g) := by
  unfold JsonOptions.collect
  split
  · exact h.call (by cases dialect <;> decide) (.cons hf .nil)
  · exact hf

/-! ## Dates -/

theorem shiftBy (h : FullCongruence R) (shift : Shift) (step : Interval.Step) (hf : R f g) :
    R (shiftBy dialect shift f step) (shiftBy dialect shift g step) := by
  obtain ⟨amount, unit⟩ := step
  have hamount := h.value (.int amount)
  cases dialect with
  | mysql =>
      have hunit : unit.keyword ∉ cipherFunctions := by cases unit <;> decide
      refine h.call (by cases shift <;> decide) (.cons hf (.cons ?_ .nil))
      exact h.spaced (.cons (h.word (by decide)) (.cons hamount (.cons (h.word hunit) .nil)))
  | postgresql =>
      refine h.parens (h.spaced (.cons hf (.cons ?_ (.cons (h.cast (by decide) hamount)
        (.cons (h.word (by decide)) (.cons (h.word (by decide)) (.cons (h.literal _) .nil)))))))
      cases shift <;> exact h.word (by decide)
  | sqlite =>
      simp only [QueryTree.shiftBy]
      split
      · exact h.call (by decide) (.cons hf (.cons (h.text _) .nil))
      · exact h.halted _ hf

theorem foldl_shiftBy (h : FullCongruence R) (dialect : Dialect) (shift : Shift)
    (steps : List Interval.Step) (hf : R f g) :
    R (steps.foldl (QueryTree.shiftBy dialect shift) f)
      (steps.foldl (QueryTree.shiftBy dialect shift) g) := by
  induction steps generalizing f g with
  | nil => exact hf
  | cons step steps ih => exact ih (h.shiftBy shift step hf)

theorem parseDate (h : FullCongruence R) (pattern : String) (hf : R f g) :
    R (parseDate dialect f pattern) (parseDate dialect g pattern) := by
  unfold QueryTree.parseDate
  split
  · exact h.halted _ hf
  · cases dialect with
    | mysql => exact h.call (by decide) (.cons hf (.cons (h.text _) .nil))
    | postgresql => exact h.call (by decide) (.cons hf (.cons (h.text _) .nil))
    | sqlite => exact h.halted _ hf

theorem formatDate (h : FullCongruence R) (pattern : String) (hf : R f g) :
    R (formatDate dialect f pattern) (formatDate dialect g pattern) := by
  unfold QueryTree.formatDate
  split
  · exact h.halted _ hf
  · cases dialect with
    | mysql => exact h.call (by decide) (.cons hf (.cons (h.text _) .nil))
    | postgresql => exact h.call (by decide) (.cons hf (.cons (h.text _) .nil))
    | sqlite =>
        exact h.append (h.word (by decide))
          (h.parens (h.led _ (h.append (h.tokens (by decide)) hf)))

/-- **Related dates that are read, moved and formatted alike are related.** -/
theorem dateChange (h : FullCongruence R) (change : DateChange) (hf : R f g) :
    R (change.apply dialect f) (change.apply dialect g) := by
  have hread : R (change.fromPattern.elim f (QueryTree.parseDate dialect f))
      (change.fromPattern.elim g (QueryTree.parseDate dialect g)) := by
    cases change.fromPattern with
    | none => exact hf
    | some pattern => exact h.parseDate pattern hf
  have hmoved := h.foldl_shiftBy dialect .sub change.sub
    (h.foldl_shiftBy dialect .add change.add hread)
  unfold DateChange.apply
  cases change.format with
  | none => exact hmoved
  | some pattern => exact h.formatDate pattern hmoved

end FullCongruence

end Fragment

end QueryTree
