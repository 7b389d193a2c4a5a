import QueryTree.Proofs.Emission.Grammar

/-!
# Phrases

The ways to put fragments together follow the rules, and so does everything that is written for a
single step of an expression: conversions, comparisons, dates, ciphers, texts of callers.

* `phrase_join`, `phrase_call`, `tail_clause`: putting fragments together.
* `phrase_group`, `phrase_compareWith`, `phrase_wrapperEntry`: conditions.
* `phrase_castTo`, `phrase_dateChange`, `phrase_cipher`: steps of an expression.
* `phrase_column`, `phrase_valueToken`: texts of callers.
-/

namespace QueryTree

open Fragment (word literal tokens join spaced commas operated words parens call)

variable {dialect : Dialect}

/-! ## Putting fragments together -/

/-- All fragments of a list are phrases. -/
def Phrases (dialect : Dialect) : List Fragment → Prop
  | [] => True
  | f :: fs => Phrase dialect f ∧ Phrases dialect fs

theorem phrases_append {fs gs : List Fragment} (hf : Phrases dialect fs)
    (hg : Phrases dialect gs) : Phrases dialect (fs ++ gs) := by
  induction fs with
  | nil => exact hg
  | cons f fs ih => exact ⟨hf.1, ih hf.2⟩

theorem phrases_of_forall_mem {fs : List Fragment} (h : ∀ f ∈ fs, Phrase dialect f) :
    Phrases dialect fs := by
  induction fs with
  | nil => trivial
  | cons f fs ih => exact ⟨h f (by simp), ih fun g hg => h g (by simp [hg])⟩

theorem phrases_map {α : Type} {g : α → Fragment} {xs : List α}
    (h : ∀ x ∈ xs, Phrase dialect (g x)) : Phrases dialect (xs.map g) := by
  refine phrases_of_forall_mem fun f hf => ?_
  obtain ⟨x, hx, rfl⟩ := List.mem_map.1 hf
  exact h x hx

theorem phrases_intersperse {fs : List Fragment} {separator : Fragment}
    (h : Phrases dialect fs) (hs : Phrase dialect separator) :
    Phrases dialect (fs.intersperse separator) := by
  induction fs with
  | nil => trivial
  | cons f fs ih =>
      cases fs with
      | nil => exact ⟨h.1, trivial⟩
      | cons g fs => exact ⟨h.1, hs, ih h.2⟩

theorem mem_phraseWords_of_common {w : String} (h : w ∈ commonWords ∧ standsAlone w = true) :
    w ∈ dialect.phraseWords :=
  Dialect.mem_phraseWords.2 ⟨dialect.mem_words_of_common h.1, h.2⟩

theorem mem_phraseWords_of_own {w : String} (h : w ∈ dialect.ownWords) :
    w ∈ dialect.phraseWords := by
  have halone : ∀ w ∈ dialect.ownWords, standsAlone w = true := by cases dialect <;> decide +kernel
  exact Dialect.mem_phraseWords.2 ⟨List.mem_append_right _ h, halone w h⟩

/-- Words of all dialects that need nothing beside them. -/
theorem phrase_word {w : String} (h : w ∈ commonWords ∧ standsAlone w = true) :
    Phrase dialect (word w) :=
  .word (mem_phraseWords_of_common h)

/-- Words of one dialect. -/
theorem phrase_ownWord {w : String} (h : w ∈ dialect.ownWords) : Phrase dialect (word w) :=
  .word (mem_phraseWords_of_own h)

/-- **Phrases with a separator between them are a phrase.** -/
theorem phrase_join {separator : List Lexeme} (hs : Separator dialect separator)
    {fs : List Fragment} (h : Phrases dialect fs) : Phrase dialect (join separator fs) := by
  induction fs with
  | nil => exact .whole .empty
  | cons f fs ih =>
      cases fs with
      | nil => exact h.1
      | cons g fs => exact .joined hs h.1 (ih h.2)

/-- With a space between them, phrases do not run together. -/
theorem phrase_spaced {fs : List Fragment} (h : Phrases dialect fs) :
    Phrase dialect (spaced fs) :=
  phrase_join .space h

theorem phrase_commas {fs : List Fragment} (h : Phrases dialect fs) :
    Phrase dialect (commas fs) :=
  phrase_join .comma h

theorem phrase_operated {operator : String} (ho : operator ∈ dialect.phraseWords)
    {fs : List Fragment} (h : Phrases dialect fs) : Phrase dialect (operated operator fs) :=
  phrase_join (.operator ho) h

theorem phrase_words {ws : List String} (h : ∀ w ∈ ws, w ∈ dialect.phraseWords) :
    Phrase dialect (words ws) :=
  phrase_spaced (phrases_map fun w hw => .word (h w hw))

/-- **A call of a function that the dialect knows is a phrase**, if its arguments are. -/
theorem phrase_call {function : String} (hw : function ∈ dialect.functions)
    {fs : List Fragment} (h : Phrases dialect fs) : Phrase dialect (call function fs) :=
  .call hw (phrase_commas h)

theorem phrase_commonCall {function : String} (hw : function ∈ commonFunctions)
    {fs : List Fragment} (h : Phrases dialect fs) : Phrase dialect (call function fs) :=
  phrase_call (dialect.mem_functions_of_common hw) h

theorem phrase_ownCall {function : String} (hw : function ∈ dialect.ownFunctions)
    {fs : List Fragment} (h : Phrases dialect fs) : Phrase dialect (call function fs) :=
  phrase_call (List.mem_append_right _ hw) h

/-- A conversion to a type that is named by words of the dialect. -/
theorem phrase_cast {f : Fragment} {type : List String} (h : Phrase dialect f)
    (ht : ∀ w ∈ type, w ∈ dialect.phraseWords) : Phrase dialect (f.cast type) :=
  .call (dialect.mem_functions_of_common (by simp [commonFunctions]))
    (phrase_spaced ⟨h, phrase_word (by simp [commonWords]), phrase_words ht, trivial⟩)

theorem phrase_text (s : String) : Phrase dialect (.text s) :=
  .value rfl

theorem phrase_ofNat (n : Nat) : Phrase dialect (.value (.ofNat n)) := by
  refine .value ?_
  unfold Value.ofNat Value.ofInt
  split <;> rfl

theorem phrase_ofNumber (n : Number) : Phrase dialect (.value (.ofNumber n)) := by
  refine .value ?_
  cases n with
  | int n =>
      simp only [Value.ofNumber, Value.ofInt]
      split <;> rfl
  | float x => rfl

/-- An error after a phrase keeps it one, since nothing more is written. -/
theorem phrase_halted {f : Fragment} (h : Phrase dialect f) (e : CompileError) :
    Phrase dialect (f ++ .fail e) :=
  .halted e h.plain

theorem common_mem_words {ws : List String}
    (h : ∀ w ∈ ws, w ∈ commonWords ∧ standsAlone w = true) :
    ∀ w ∈ ws, w ∈ dialect.phraseWords :=
  fun w hw => mem_phraseWords_of_common (h w hw)

/-- A clause begins with a space, so that it can follow any phrase. -/
theorem tail_clause {keywords : List String} (hk : ∀ w ∈ keywords, w ∈ dialect.phraseWords)
    {body : Fragment} (h : Phrase dialect body) : Tail dialect (clause keywords body) :=
  .clause (phrase_spaced ⟨phrase_words hk, h, trivial⟩)

/-- A clause is left out if its list is empty. -/
theorem tail_listClause {keywords : List String} (hk : ∀ w ∈ keywords, w ∈ dialect.phraseWords)
    {parts : List Fragment} (h : Phrases dialect parts) :
    Tail dialect (listClause keywords parts) := by
  unfold listClause
  split
  · exact .empty
  · exact tail_clause hk (phrase_commas h)

/-! ## Conditions -/

theorem keyword_mem_words (junction : Junction) : junction.keyword ∈ dialect.phraseWords := by
  refine mem_phraseWords_of_common ?_
  cases junction <;> simp [Junction.keyword, commonWords]

theorem comparator_mem_words (comparator : Comparator) :
    ∀ w ∈ comparator.words, w ∈ dialect.phraseWords := by
  intro w hw
  refine mem_phraseWords_of_common ?_
  cases comparator <;> simp [Comparator.words] at hw <;> rcases hw with rfl | rfl <;>
    simp [commonWords]

theorem phrase_chain (junction : Junction) {parts : List Fragment} (h : Phrases dialect parts) :
    Phrase dialect (junction.chain parts) :=
  phrase_operated (keyword_mem_words junction) h

/-- Several conditions are put in parentheses, a single one is not. -/
theorem phrase_nest (junction : Junction) {parts : List Fragment} (h : Phrases dialect parts) :
    Phrase dialect (junction.nest parts) := by
  unfold Junction.nest
  split
  · exact .whole .empty
  · exact h.1
  · exact .parens (phrase_chain junction h)

/-- **Conditions joined by a connective are a phrase**; without any, there is an error. -/
theorem phrase_group (junction : Junction) {parts : List Fragment} (h : Phrases dialect parts) :
    Phrase dialect (junction.group parts) := by
  unfold Junction.group
  split
  · exact .fail _
  · exact phrase_nest junction h

/-- A clause is left out if it has no conditions. -/
theorem tail_conditionClause {keyword : String}
    (hk : keyword ∈ commonWords ∧ standsAlone keyword = true) (junction : Junction)
    {parts : List Fragment} (h : Phrases dialect parts) :
    Tail dialect (conditionClause keyword junction parts) := by
  unfold conditionClause
  split
  · exact .empty
  · refine tail_clause ?_ (phrase_chain junction h)
    simpa only [List.forall_mem_singleton] using mem_phraseWords_of_common hk

/-- Without a column there is an error in its place. -/
theorem phrase_leftOperand {parent : Option Fragment} (h : ∀ f ∈ parent, Phrase dialect f)
    (comparison : String) : Phrase dialect (leftOperand parent comparison) := by
  cases parent with
  | none => exact .fail _
  | some f => exact h f rfl

theorem phrase_equals {left right : Fragment} (hl : Phrase dialect left)
    (hr : Phrase dialect right) : Phrase dialect (equals left right) :=
  phrase_spaced ⟨hl, phrase_word (by simp [commonWords]), hr, trivial⟩

theorem phrase_isNullTest {left : Fragment} (h : Phrase dialect left) :
    Phrase dialect (isNullTest left) :=
  phrase_spaced ⟨h, phrase_word (by simp [commonWords]), phrase_word (by simp [commonWords]),
    trivial⟩

theorem phrase_isNotNullTest {left : Fragment} (h : Phrase dialect left) :
    Phrase dialect (isNotNullTest left) :=
  phrase_spaced ⟨h, phrase_word (by simp [commonWords]), phrase_word (by simp [commonWords]),
    phrase_word (by simp [commonWords]), trivial⟩

/-- A list in parentheses, after the words of the comparison. -/
theorem phrase_inList (field : String) (comparator : Comparator) {left : Fragment}
    (hl : Phrase dialect left) {items : List Fragment} (h : Phrases dialect items) :
    Phrase dialect (inList field comparator left items) := by
  unfold inList
  split
  · exact .fail _
  · exact phrase_spaced
      ⟨hl, phrase_words (comparator_mem_words comparator), .parens (phrase_commas h), trivial⟩

/-- A value wrapper alone, or equal to what it stands under. -/
theorem phrase_wrapperEntry {parent : Option Fragment} (hp : ∀ f ∈ parent, Phrase dialect f)
    (compared : Bool) {f : Fragment} (h : Phrase dialect f) :
    Phrase dialect (wrapperEntry parent compared f) := by
  unfold wrapperEntry
  split
  · split
    · exact h
    · exact .crossed (hp _ rfl) h
  · exact h

/-! ## Steps of an expression -/

theorem typeWords_mem_words {type : CastType} {ws : List String}
    (h : dialect.typeWords type = some ws) : ∀ w ∈ ws, w ∈ dialect.phraseWords := by
  intro w hw
  refine mem_phraseWords_of_own ?_
  cases dialect <;> cases type
    <;> simp only [Dialect.typeWords, Option.some.injEq, reduceCtorEq] at h
    <;> subst h <;> simp only [List.mem_cons, List.not_mem_nil, or_false] at hw
    <;> rcases hw with rfl | rfl <;> simp [Dialect.ownWords]

/-- **A conversion is written in words of the dialect**, if it has the type. -/
theorem phrase_castTo {f : Fragment} (h : Phrase dialect f) (type : CastType) :
    Phrase dialect (dialect.castTo f type) := by
  unfold Dialect.castTo
  split
  · next ws hws => exact phrase_cast h (typeWords_mem_words hws)
  · exact phrase_halted h _

theorem phrase_castOptional {f : Fragment} (h : Phrase dialect f) (type : Option CastType) :
    Phrase dialect (dialect.castOptional f type) := by
  cases type with
  | none => exact h
  | some type => exact phrase_castTo h type

theorem phrase_textOperand {f : Fragment} (h : Phrase dialect f) :
    Phrase dialect (dialect.textOperand f) := by
  cases dialect with
  | postgresql => exact phrase_cast h (by simp [Dialect.words, Dialect.ownWords])
  | mysql => exact h
  | sqlite => exact h

/-- Texts are put together by a call or by an operator. -/
theorem phrase_concatenate {parts : List Fragment} (h : Phrases dialect parts) :
    Phrase dialect (dialect.concatenate parts) := by
  cases dialect with
  | mysql => exact phrase_ownCall (by simp [Dialect.ownFunctions]) h
  | postgresql => exact phrase_operated (by simp [Dialect.words, Dialect.ownWords]) h
  | sqlite => exact phrase_operated (by simp [Dialect.words, Dialect.ownWords]) h

theorem phrase_wildcard : Phrase dialect (literal "%") :=
  .literal (by cases dialect <;> simp [Dialect.literals])

/-- **Comparisons by an operator**, with wildcards around the text if it is to be matched. -/
theorem phrase_compareWith (comparator : Comparator) {left right : Fragment}
    (hl : Phrase dialect left) (hr : Phrase dialect right) :
    Phrase dialect (compareWith dialect comparator left right) := by
  refine phrase_spaced ⟨hl, phrase_words (comparator_mem_words comparator), ?_, trivial⟩
  cases comparator.wildcards with
  | none => exact hr
  | some ends =>
      obtain ⟨opened, closed⟩ := ends
      have htext := phrase_textOperand hr
      refine phrase_concatenate ?_
      cases opened <;> cases closed
      · exact ⟨htext, trivial⟩
      · exact ⟨htext, phrase_wildcard, trivial⟩
      · exact ⟨phrase_wildcard, htext, trivial⟩
      · exact ⟨phrase_wildcard, htext, phrase_wildcard, trivial⟩

theorem phrase_concatFragment (separator : Option String) {parts : List Fragment}
    (h : Phrases dialect parts) : Phrase dialect (concatFragment dialect separator parts) := by
  unfold concatFragment
  split
  · refine .parens (phrase_operated ?_ (phrases_intersperse h (phrase_text _)))
    simp [Dialect.words, Dialect.ownWords]
  · exact .parens (phrase_operated (by simp [Dialect.words, Dialect.ownWords]) h)
  · next separator hsqlite =>
      refine phrase_ownCall ?_ ⟨phrase_textOperand (phrase_text separator), h⟩
      cases dialect <;> simp [Dialect.ownFunctions] at hsqlite ⊢
  · next hsqlite =>
      refine phrase_ownCall ?_ h
      cases dialect <;> simp [Dialect.ownFunctions] at hsqlite ⊢

theorem phrase_rounding {f : Fragment} (h : Phrase dialect f) (rounding : Rounding) :
    Phrase dialect (rounding.apply dialect f) := by
  cases rounding with
  | ceil => exact phrase_commonCall (by simp [commonFunctions]) ⟨h, trivial⟩
  | floor => exact phrase_commonCall (by simp [commonFunctions]) ⟨h, trivial⟩
  | round => exact phrase_commonCall (by simp [commonFunctions]) ⟨h, trivial⟩
  | digits n =>
      have hn : Phrase dialect (.value (.int n)) := .value rfl
      cases dialect with
      | postgresql =>
          refine phrase_commonCall (by simp [commonFunctions]) ⟨phrase_cast h ?_, hn, trivial⟩
          simp [Dialect.words, Dialect.ownWords]
      | mysql => exact phrase_commonCall (by simp [commonFunctions]) ⟨h, hn, trivial⟩
      | sqlite => exact phrase_commonCall (by simp [commonFunctions]) ⟨h, hn, trivial⟩

/-! ## JSON values -/

theorem phrase_jsonExtract {f path : Fragment} (h : Phrase dialect f)
    (hp : Phrase dialect path) : Phrase dialect (dialect.jsonExtract f path) := by
  cases dialect with
  | postgresql =>
      have hjson : Phrase .postgresql (f.cast ["JSONB"]) :=
        phrase_cast h (by simp [Dialect.words, Dialect.ownWords])
      have hpath : Phrase .postgresql (path.cast ["TEXT[]"]) :=
        phrase_cast hp (by simp [Dialect.words, Dialect.ownWords])
      refine .parens (phrase_operated ?_ ⟨hjson, hpath, trivial⟩)
      simp [Dialect.words, Dialect.ownWords]
  | mysql => exact phrase_ownCall (by simp [Dialect.ownFunctions]) ⟨h, hp, trivial⟩
  | sqlite => exact phrase_ownCall (by simp [Dialect.ownFunctions]) ⟨h, hp, trivial⟩

theorem phrase_jsonContains {f candidate g : Fragment} (h : Phrase dialect f)
    (hc : Phrase dialect candidate) (hg : dialect.jsonContains? f candidate = some g) :
    Phrase dialect g := by
  cases dialect with
  | mysql =>
      cases hg
      exact phrase_ownCall (by simp [Dialect.ownFunctions]) ⟨h, hc, trivial⟩
  | postgresql =>
      cases hg
      have hcast : ∀ {body}, Phrase .postgresql body → Phrase .postgresql (body.cast ["JSONB"]) :=
        fun hbody => phrase_cast hbody (by simp [Dialect.words, Dialect.ownWords])
      refine phrase_operated ?_ ⟨hcast h, hcast hc, trivial⟩
      simp [Dialect.words, Dialect.ownWords]
  | sqlite => cases hg

/-- A path into a JSON value, and what is taken from there. -/
theorem phrase_jsonOptions (options : JsonOptions) {f : Fragment} (h : Phrase dialect f) :
    Phrase dialect (options.apply dialect f) := by
  obtain ⟨isArray, aggregate, extract, contains⟩ := options
  -- the test comes after the extraction, so it is settled for any fragment first
  have htested : ∀ {g}, Phrase dialect g →
      Phrase dialect (JsonOptions.apply dialect ⟨isArray, aggregate, none, contains⟩ g) := by
    intro g hg
    cases contains with
    | none => exact hg
    | some candidate =>
        have hc : Phrase dialect (.text candidate.compact) := phrase_text _
        simp only [JsonOptions.apply]
        split
        · next tested ht => exact phrase_jsonContains hg hc ht
        · exact .halted _ ⟨hg.plain, hc.plain⟩
  cases extract with
  | none => exact htested h
  | some path => exact htested (phrase_jsonExtract h (phrase_text _))

theorem phrase_collect (options : JsonOptions) {f : Fragment} (h : Phrase dialect f) :
    Phrase dialect (options.collect dialect f) := by
  unfold JsonOptions.collect
  split
  · refine phrase_ownCall ?_ ⟨h, trivial⟩
    cases dialect <;> simp [Dialect.jsonAggregateFunction, Dialect.ownFunctions]
  · exact h

/-! ## Dates -/

/-- A step moves a date by a call or by an operator with an interval. -/
theorem phrase_shiftBy (shift : Shift) {f : Fragment} (h : Phrase dialect f)
    (step : Interval.Step) : Phrase dialect (shiftBy dialect shift f step) := by
  obtain ⟨amount, unit⟩ := step
  have hamount : ∀ {d : Dialect}, Phrase d (.value (.int amount)) := .value rfl
  cases dialect with
  | mysql =>
      have hinterval : Phrase .mysql (spaced ["INTERVAL", .value (.int amount), unit.keyword]) := by
        refine phrase_spaced ⟨.word ?_, hamount, .word ?_, trivial⟩
        · simp [Dialect.words, Dialect.ownWords]
        · cases unit <;> simp [Interval.Unit.keyword, Dialect.words, Dialect.ownWords]
      refine phrase_ownCall ?_ ⟨h, hinterval, trivial⟩
      cases shift <;> simp [Dialect.ownFunctions]
  | postgresql =>
      have hunit : unit.single ∈ Dialect.postgresql.literals := by
        cases unit <;> simp [Interval.Unit.single, Dialect.literals]
      have hinterval : "INTERVAL" ∈ Dialect.postgresql.phraseWords := by
        simp [Dialect.words, Dialect.ownWords]
      have hcast : Phrase .postgresql ((Fragment.value (.int amount)).cast ["INTEGER"]) :=
        phrase_cast hamount (by simp [Dialect.words, Dialect.ownWords])
      refine .parens (phrase_spaced ⟨h, ?_, hcast, phrase_word ?_, .word hinterval,
        .literal hunit, trivial⟩)
      · cases shift <;> exact phrase_word (by simp [commonWords])
      · simp [commonWords]
  | sqlite =>
      unfold shiftBy
      simp only
      split
      · exact phrase_ownCall (by simp [Dialect.ownFunctions]) ⟨h, phrase_text _, trivial⟩
      · exact phrase_halted h _

theorem phrase_foldl_shiftBy (shift : Shift) (steps : List Interval.Step) {f : Fragment}
    (h : Phrase dialect f) : Phrase dialect (steps.foldl (shiftBy dialect shift) f) := by
  induction steps generalizing f with
  | nil => exact h
  | cons step steps ih => exact ih (phrase_shiftBy shift h step)

theorem phrase_parseDate {f : Fragment} (h : Phrase dialect f) (pattern : String) :
    Phrase dialect (parseDate dialect f pattern) := by
  unfold parseDate
  split
  · exact phrase_halted h _
  · cases dialect with
    | sqlite => exact phrase_halted h _
    | mysql => exact phrase_ownCall (by simp [Dialect.ownFunctions]) ⟨h, phrase_text _, trivial⟩
    | postgresql =>
        exact phrase_ownCall (by simp [Dialect.ownFunctions]) ⟨h, phrase_text _, trivial⟩

theorem phrase_formatDate {f : Fragment} (h : Phrase dialect f) (pattern : String) :
    Phrase dialect (formatDate dialect f pattern) := by
  unfold formatDate
  split
  · exact phrase_halted h _
  · cases dialect with
    | sqlite =>
        refine .call ?_ (.led rfl rfl h)
        simp [Dialect.functions, Dialect.ownFunctions]
    | mysql => exact phrase_ownCall (by simp [Dialect.ownFunctions]) ⟨h, phrase_text _, trivial⟩
    | postgresql =>
        exact phrase_ownCall (by simp [Dialect.ownFunctions]) ⟨h, phrase_text _, trivial⟩

/-- **A date that is read, moved and formatted is a phrase**, if it was one before. -/
theorem phrase_dateChange (change : DateChange) {f : Fragment} (h : Phrase dialect f) :
    Phrase dialect (change.apply dialect f) := by
  have hread : Phrase dialect (change.fromPattern.elim f (parseDate dialect f)) := by
    cases change.fromPattern with
    | none => exact h
    | some pattern => exact phrase_parseDate h pattern
  have hmoved := phrase_foldl_shiftBy .sub change.sub (phrase_foldl_shiftBy .add change.add hread)
  unfold DateChange.apply
  cases change.format with
  | none => exact hmoved
  | some pattern => exact phrase_formatDate hmoved pattern

/-! ## Ciphers -/

/-- Keys are only made with digests of known sizes, so that the size is a word. -/
theorem digest_mem_of_complete {settings : Cipher.Settings} {key : Cipher.Key}
    (h : settings.complete = .ok key) : key.digest ∈ Cipher.digestSizes := by
  unfold Cipher.Settings.complete at h
  cases hs : settings.secret with
  | none => simp [hs, bind, Except.bind] at h
  | some secret =>
      cases hv : Cipher.vectorFor (settings.mode.getD default) settings.vector with
      | error e => simp [hs, hv, bind, Except.bind] at h
      | ok vector =>
          simp only [hs, hv, bind, Except.bind] at h
          split at h
          · next hdigest =>
              cases h
              simpa using hdigest
          · cases h

theorem phrase_keyApply {key : Cipher.Key} (hk : key.digest ∈ Cipher.digestSizes)
    (direction : Direction) {f : Fragment} (h : Phrase dialect f) :
    Phrase dialect (key.apply dialect direction f) := by
  cases dialect with
  | mysql =>
      have hdigest : Decimal.natText key.digest ∈ Dialect.mysql.phraseWords := by
        simp only [Cipher.digestSizes, List.mem_cons, List.not_mem_nil, or_false] at hk
        rcases hk with hk | hk | hk | hk <;> rw [hk] <;> decide +kernel
      have hsha : Phrase .mysql
          (call "SHA2" [.secret key.secret, word (Decimal.natText key.digest)]) :=
        phrase_ownCall (by simp [Dialect.ownFunctions]) ⟨.secret _, .word hdigest, trivial⟩
      have hsecret : Phrase .mysql (hashedSecret key) :=
        .mode _ rfl (phrase_ownCall (by simp [Dialect.ownFunctions]) ⟨hsha, trivial⟩)
      refine phrase_ownCall ?_ (phrases_append ⟨h, hsecret, trivial⟩ (phrases_map ?_))
      · cases direction <;> simp [Dialect.ownFunctions]
      · exact fun s _ => .secret s
  | postgresql =>
      have hcipher : Phrase .postgresql (literal ("cipher-algo=" ++ key.mode.cipher)) := by
        refine .literal ?_
        obtain ⟨size, chained⟩ := key.mode
        cases size <;> simp [Cipher.Mode.cipher, Cipher.KeySize.text, Dialect.literals]
      cases direction with
      | encrypt =>
          refine phrase_ownCall (by simp [Dialect.ownFunctions])
            ⟨phrase_cast h ?_, .secret _, hcipher, trivial⟩
          simp [Dialect.words, Dialect.ownWords]
      | decrypt =>
          refine phrase_ownCall (by simp [Dialect.ownFunctions])
            ⟨phrase_cast h ?_, .secret _, hcipher, trivial⟩
          simp [Dialect.words, Dialect.ownWords]
  | sqlite => exact phrase_halted h _

/-- **A value that is encrypted or decrypted is a phrase**, or there is an error after it. -/
theorem phrase_cipher {scope : Scope} (hd : scope.dialect = dialect) (direction : Direction)
    (column : Cipher.Settings) {f : Fragment} (h : Phrase dialect f) :
    Phrase dialect (scope.cipher direction column f) := by
  subst hd
  unfold Scope.cipher
  split
  · next key hkey => exact phrase_keyApply (digest_mem_of_complete hkey) direction h
  · exact phrase_halted h _

theorem phrase_preparation {scope : Scope} (hd : scope.dialect = dialect)
    (prepare : Preparation) {f : Fragment} (h : Phrase dialect f) :
    Phrase dialect (prepare.apply scope f) := by
  unfold Preparation.apply
  rw [hd]
  refine phrase_castOptional ?_ prepare.cast
  cases prepare.decrypt with
  | none => exact h
  | some column => exact phrase_cipher hd .decrypt column h

/-! ## Texts of callers -/

/-- Constants are spelled by the dialect, some as a word and some as a call. -/
theorem phrase_constant (constant : Token.Constant) :
    Phrase dialect (constant.fragment dialect) := by
  have hnow : Phrase .sqlite (literal "now") := .literal (by simp [Dialect.literals])
  have hlocal : Phrase .sqlite (literal "localtime") := .literal (by simp [Dialect.literals])
  cases constant with
  | pi => exact phrase_commonCall (by simp [commonFunctions]) trivial
  | currentDate => exact phrase_word (by simp [commonWords])
  | currentTime => exact phrase_word (by simp [commonWords])
  | currentTimestamp => exact phrase_word (by simp [commonWords])
  | now =>
      cases dialect with
      | mysql => exact phrase_ownCall (by simp [Dialect.ownFunctions]) trivial
      | postgresql => exact phrase_ownCall (by simp [Dialect.ownFunctions]) trivial
      | sqlite => exact phrase_ownCall (by simp [Dialect.ownFunctions]) ⟨hnow, trivial⟩
  | localTime =>
      cases dialect with
      | mysql => exact phrase_ownWord (by simp [Dialect.ownWords])
      | postgresql => exact phrase_ownWord (by simp [Dialect.ownWords])
      | sqlite => exact phrase_ownCall (by simp [Dialect.ownFunctions]) ⟨hnow, hlocal, trivial⟩
  | localTimestamp =>
      cases dialect with
      | mysql => exact phrase_ownWord (by simp [Dialect.ownWords])
      | postgresql => exact phrase_ownWord (by simp [Dialect.ownWords])
      | sqlite => exact phrase_ownCall (by simp [Dialect.ownFunctions]) ⟨hnow, hlocal, trivial⟩
  | utcTimestamp =>
      cases dialect with
      | mysql => exact phrase_ownCall (by simp [Dialect.ownFunctions]) trivial
      | postgresql =>
          have hclock : Phrase .postgresql (call "NOW" []) :=
            phrase_ownCall (by simp [Dialect.ownFunctions]) trivial
          have hzone : Phrase .postgresql (literal "UTC") := .literal (by simp [Dialect.literals])
          refine .parens (phrase_spaced ⟨hclock, phrase_ownWord ?_, phrase_ownWord ?_,
            phrase_ownWord ?_, hzone, trivial⟩) <;> simp [Dialect.ownWords]
      | sqlite => exact phrase_ownCall (by simp [Dialect.ownFunctions]) ⟨hnow, trivial⟩

theorem phrase_star (token : String) : Phrase dialect (Token.star token) := by
  unfold Token.star
  split
  · exact phrase_word (by simp [commonWords])
  · split
    · split
      · exact .star _
      · exact .fail _
    · exact .fail _

theorem phrase_null : Phrase dialect (word "NULL") :=
  phrase_word (by simp [commonWords])

/-- **A text of a caller that stands for a column** is a constant, a star, null, a text or a path.
-/
theorem phrase_column {scope : Scope} (hd : scope.dialect = dialect) (token : String) :
    Phrase dialect (Token.column scope token) := by
  unfold Token.column
  rw [hd]
  split
  · exact phrase_constant _
  · split
    · exact phrase_star token
    · split
      · exact phrase_null
      · split
        · exact phrase_text _
        · split
          · exact phrase_text _
          · exact .path _

/-- A text of a caller that stands for a value is bound, unless it is a constant, null or a column.
-/
theorem phrase_valueToken {scope : Scope} (hd : scope.dialect = dialect) (token : String) :
    Phrase dialect (Token.value scope token) := by
  unfold Token.value
  rw [hd]
  split
  · exact phrase_constant _
  · split
    · exact phrase_null
    · split
      · exact phrase_text _
      · split
        · exact .path _
        · exact phrase_text _

theorem phrase_token {scope : Scope} (hd : scope.dialect = dialect) (place : Place)
    (token : String) : Phrase dialect (place.token scope token) := by
  cases place with
  | column => exact phrase_column hd token
  | value => exact phrase_valueToken hd token

/-! ## Parts of a query -/

theorem phrase_tableFragment (table : String) (alias? : Option String) :
    Phrase dialect (tableFragment table alias?) := by
  cases alias? with
  | none => exact .path table
  | some name =>
      exact phrase_spaced ⟨.path table, phrase_word (by simp [commonWords]), .path name, trivial⟩

theorem phrase_aliased (alias? : Option String) {f : Fragment} (h : Phrase dialect f) :
    Phrase dialect (aliased alias? f) := by
  cases alias? with
  | none => exact h
  | some name =>
      exact phrase_spaced ⟨h, phrase_word (by simp [commonWords]), .outputName name, trivial⟩

theorem phrase_sortKey {scope : Scope} (hd : scope.dialect = dialect) (outputs : List String)
    (token : String) : Phrase dialect (sortKey scope outputs token) := by
  unfold sortKey
  split
  · exact .path token
  · exact phrase_column hd token

theorem phrases_orderFragments {scope : Scope} (hd : scope.dialect = dialect)
    (outputs : List String) (keys : List (String × SortOrder)) :
    Phrases dialect (orderFragments scope outputs keys) := by
  refine phrases_map fun (key, order) _ => ?_
  refine phrase_spaced ⟨phrase_sortKey hd outputs key, phrase_word ?_, trivial⟩
  cases order <;> simp [SortOrder.keyword, commonWords]

/-- An offset without a limit follows the unbounded limit of the dialect, if it needs one. -/
theorem tail_limitFragment (limit offset : Option Nat) :
    Tail dialect (limitFragment dialect limit offset) := by
  have hlimit : ∀ w ∈ ["LIMIT"], w ∈ dialect.phraseWords :=
    common_mem_words (by simp [commonWords])
  have hoffset : ∀ w ∈ ["OFFSET"], w ∈ dialect.phraseWords :=
    common_mem_words (by simp [commonWords])
  refine .clauses ?_ ?_
  · split
    · exact tail_clause hlimit (phrase_ofNat _)
    · split
      · next unbounded hu =>
          refine tail_clause hlimit (phrase_ownWord ?_)
          cases dialect <;> cases hu <;> simp [Dialect.ownWords]
      · exact .empty
    · exact .empty
  · split
    · exact tail_clause hoffset (phrase_ofNat _)
    · exact .empty

/-- The clauses of a query in their order. -/
theorem phrase_clauses {items table joins : Fragment} {filtered keys kept order : List Fragment}
    (junction : Junction) (hitems : Phrase dialect items) (htable : Phrase dialect table)
    (hjoins : Tail dialect joins) (hfiltered : Phrases dialect filtered)
    (hkeys : Phrases dialect keys) (hkept : Phrases dialect kept)
    (horder : Phrases dialect order) (limit offset : Option Nat) :
    Phrase dialect (spaced ["SELECT", items, "FROM", table] ++ joins
      ++ conditionClause "WHERE" junction filtered ++ listClause ["GROUP", "BY"] keys
      ++ conditionClause "HAVING" junction kept ++ listClause ["ORDER", "BY"] order
      ++ limitFragment dialect limit offset) := by
  have hhead : Phrase dialect (spaced ["SELECT", items, "FROM", table]) :=
    phrase_spaced ⟨phrase_word (by simp [commonWords]), hitems,
      phrase_word (by simp [commonWords]), htable, trivial⟩
  refine .followed (.followed (.followed (.followed (.followed (.followed hhead hjoins) ?_) ?_)
    ?_) ?_) (tail_limitFragment limit offset)
  · exact tail_conditionClause (by simp [commonWords]) junction hfiltered
  · exact tail_listClause (common_mem_words (by simp [commonWords])) hkeys
  · exact tail_conditionClause (by simp [commonWords]) junction hkept
  · exact tail_listClause (common_mem_words (by simp [commonWords])) horder

end QueryTree
