import QueryTree.Proofs.Portability.Bare
import QueryTree.Proofs.Statement.Outcome

/-!
# Queries in three dialects

A query without wrappers is refused by all dialects or by none, and its values are the same in
all of them, names apart. Where nothing in it is spelled differently, two dialects even write the
same text, up to how they refer to names.

* `Vocabulary.all`, `Vocabulary.shared`: everything, and what two dialects spell alike.
* `agreement_content`: bare queries have the same errors and the same values.
* `agreement_shared`: they are the same fragments where the vocabulary is shared.
* `replaceMarks`: a text with names in the place of its marks for names.
-/

namespace QueryTree

open Fragment (word literal tokens join spaced commas operated words parens call)

variable {dialect : Dialect}

/-! ## The same errors and values -/

theorem hurdles_compareWith (comparator : Comparator) (f g : Fragment) :
    (compareWith dialect comparator f g).hurdles = f.hurdles ++ g.hurdles := by
  unfold compareWith
  cases comparator.wildcards with
  | none => simp [spaced]
  | some ends =>
      obtain ⟨opened, closed⟩ := ends
      cases dialect <;> cases opened <;> cases closed <;>
        simp [spaced, wildcarded, Dialect.concatenate, Dialect.textOperand, Fragment.cast, operated,
          call, commas, literal, Fragment.hurdles]

theorem stored_compareWith (comparator : Comparator) (f g : Fragment) :
    (compareWith dialect comparator f g).stored dialect
      = f.stored dialect ++ g.stored dialect := by
  unfold compareWith
  cases comparator.wildcards with
  | none => simp [spaced]
  | some ends =>
      obtain ⟨opened, closed⟩ := ends
      cases dialect <;> cases opened <;> cases closed <;>
        simp [spaced, wildcarded, Dialect.concatenate, Dialect.textOperand, Fragment.cast, operated,
          call, commas, literal, Fragment.stored]

theorem hurdles_constant (constant : Token.Constant) :
    (constant.fragment dialect).hurdles = [] := by
  cases constant <;> cases dialect <;> rfl

theorem stored_constant (constant : Token.Constant) :
    (constant.fragment dialect).stored dialect = [] := by
  cases constant <;> cases dialect <;> rfl

namespace Fragment

/-- The values of a fragment, names apart. -/
def givenValues (dialect : Dialect) (f : Fragment) : List Value :=
  ((f.stored dialect).map Stored.value).filter fun v => !v.isIdentifier

/-- Two fragments, each in its dialect, have the same hurdles and the same values. -/
def SameContent (d d' : Dialect) (f g : Fragment) : Prop :=
  f.hurdles = g.hurdles ∧ f.givenValues d = g.givenValues d'

variable {d d' : Dialect}

theorem congruence_sameContent : Congruence (SameContent d d') where
  empty := ⟨rfl, rfl⟩
  token _ := ⟨rfl, rfl⟩
  value _ := ⟨rfl, rfl⟩
  path _ := by
    refine ⟨rfl, ?_⟩
    cases d <;> cases d' <;> rfl
  fail _ := ⟨rfl, rfl⟩
  enclosed _ _ _ h := h
  append hf hg := by
    refine ⟨?_, ?_⟩
    · simp [hf.1, hg.1]
    · have hvalues := congrArg₂ (· ++ ·) hf.2 hg.2
      simpa [givenValues] using hvalues

end Fragment

/-- Everything. -/
def Vocabulary.all : Vocabulary where
  text _ _ := true
  comparator _ := true
  page _ _ := true

theorem sameContent_star {d d' : Dialect} (token : String) :
    Fragment.SameContent d d' (Token.star token) (Token.star token) := by
  unfold Token.star
  split
  · exact ⟨rfl, rfl⟩
  · split
    · split <;> exact ⟨rfl, rfl⟩
    · exact ⟨rfl, rfl⟩

theorem sameContent_constant {d d' : Dialect} (constant : Token.Constant) :
    Fragment.SameContent d d' (constant.fragment d) (constant.fragment d') := by
  refine ⟨?_, ?_⟩
  · rw [hurdles_constant, hurdles_constant]
  · rw [Fragment.givenValues, Fragment.givenValues, stored_constant, stored_constant]

/-- **Bare trees have the same errors and the same values in any two dialects.** -/
theorem agreement_content (d d' : Dialect) :
    Agreement (Fragment.SameContent d d') d d' Vocabulary.all where
  toCongruence := Fragment.congruence_sameContent
  text place token scope _ := by
    cases hconstant : Token.Constant.ofName? token with
    | some constant => cases place <;> simpa [Place.token, Token.column, Token.value, hconstant]
        using sameContent_constant constant
    | none =>
        by_cases hstar : place = .column ∧ token.toList.contains '*' = true
        · obtain ⟨rfl, hstar⟩ := hstar
          simpa only [Place.token, Token.column, hconstant, hstar, if_true]
            using sameContent_star token
        · exact Fragment.congruence_sameContent.plainToken scope d d' hconstant
            (by simpa using hstar)
  compareWith _ hf hg := by
    refine ⟨?_, ?_⟩
    · rw [hurdles_compareWith, hurdles_compareWith, hf.1, hg.1]
    · have hvalues := congrArg₂ (· ++ ·) hf.2 hg.2
      simpa [Fragment.givenValues, stored_compareWith] using hvalues
  limitFragment {limit offset} _ := by
    cases limit <;> cases offset <;> cases d <;> cases d' <;>
      simp [Fragment.SameContent, Fragment.givenValues, limitFragment, clause, spaced,
        Dialect.unboundedLimit, Fragment.hurdles, Fragment.stored]

/-! ## The same text -/

/-- What two dialects with positional placeholders spell alike: no constants, no stars, no text
matches, and no offset without a limit. -/
def Vocabulary.shared : Vocabulary where
  text place token :=
    (Token.Constant.ofName? token).isNone && !(place == .column && token.toList.contains '*')
  comparator c := c.wildcards.isNone
  page limit offset := limit.isSome || offset.isNone

/-- Whether a fragment is made of values, paths and lexemes that are spelled alike everywhere. -/
def Fragment.isUniform : Fragment → Bool
  | .empty | .value _ | .path _ | .fail _ => true
  | .token t => t.isOrdinary
  | .enclosed _ body => body.isUniform
  | .append first second => first.isUniform && second.isUniform
  | .secret _ | .outputName _ | .mode _ | .crossed _ _ | .led _ _ => false

theorem Fragment.congruence_isUniform :
    Fragment.Congruence fun f g => f = g ∧ f.isUniform = true where
  empty := ⟨rfl, rfl⟩
  token h := ⟨rfl, h⟩
  value _ := ⟨rfl, rfl⟩
  path _ := ⟨rfl, rfl⟩
  fail _ := ⟨rfl, rfl⟩
  enclosed _ _ _ h := ⟨h.1 ▸ rfl, h.2⟩
  append hf hg := ⟨hf.1 ▸ hg.1 ▸ rfl, Bool.and_eq_true_iff.2 ⟨hf.2, hg.2⟩⟩

/-- **Bare trees with a shared vocabulary are the same fragments in both dialects.** -/
theorem agreement_shared :
    Agreement (fun f g => f = g ∧ f.isUniform = true) .mysql .sqlite Vocabulary.shared where
  toCongruence := Fragment.congruence_isUniform
  text place token scope h := by
    obtain ⟨hconstant, hstar⟩ := Bool.and_eq_true_iff.1 h
    refine Fragment.congruence_isUniform.plainToken scope .mysql .sqlite
      (by simpa using hconstant) ?_
    rintro rfl
    simpa using hstar
  compareWith {comparator f f' g g'} h hf hg := by
    have hnone : comparator.wildcards = none := by simpa [Vocabulary.shared] using h
    have hcompared := Fragment.congruence_isUniform.spaced
      (.cons hf (.cons (Fragment.congruence_isUniform.words
        (Fragment.Congruence.comparator_words_not_mem comparator)) (.cons hg .nil)))
    simpa only [compareWith, hnone] using hcompared
  limitFragment {limit offset} h := by
    have hunit := Fragment.congruence_isUniform
    have hclause : ∀ {keyword : String} (n : Nat), keyword ∉ cipherFunctions →
        clause [keyword] (.value (.ofNat n)) = clause [keyword] (.value (.ofNat n))
          ∧ (clause [keyword] (.value (.ofNat n))).isUniform = true :=
      fun n hk => hunit.clause (by simpa using hk) (hunit.value _)
    cases limit with
    | some n =>
        cases offset with
        | none => exact hunit.append (hclause n (by decide)) hunit.empty
        | some m => exact hunit.append (hclause n (by decide)) (hclause m (by decide))
    | none =>
        cases offset with
        | none => exact ⟨rfl, rfl⟩
        | some m => cases h

/-- A text with its marks for names replaced, from left to right. -/
def replaceMarks : List Char → List String → List Char
  | '?' :: '?' :: rest, name :: names => name.toList ++ replaceMarks rest names
  | c :: rest, names => c :: replaceMarks rest names
  | [], _ => []

/-- `Swapped ts names us`: the lexemes `us` are the lexemes `ts` with the names, in quotes, in the
place of marks; values may be numbered differently. -/
inductive Swapped : List Lexeme → List String → List Lexeme → Prop
  | nil : Swapped [] [] []
  | name {ts us : List Lexeme} {names : List String} (path : String) : Swapped ts names us →
      Swapped (.nameSlot :: ts) (path :: names) (.name (Text.pathParts path) :: us)
  | slot {ts us : List Lexeme} {names : List String} (i j : Nat) : Swapped ts names us →
      Swapped (.slot i :: ts) names (.slot j :: us)
  | same {ts us : List Lexeme} {names : List String} {t : Lexeme} :
      t.isOrdinary = true ∨ t.isPunctuation = true → Swapped ts names us →
      Swapped (t :: ts) names (t :: us)

theorem Swapped.append {ts us ts' us' : List Lexeme} {names names' : List String}
    (h : Swapped ts names us) (h' : Swapped ts' names' us') :
    Swapped (ts ++ ts') (names ++ names') (us ++ us') := by
  induction h with
  | nil => exact h'
  | name path _ ih => exact ih.name path
  | slot i j _ ih => exact ih.slot i j
  | same ht _ ih => exact ih.same ht

theorem swapped_delimiters (delimiters : Delimiters) :
    Swapped delimiters.left [] delimiters.left ∧ Swapped delimiters.right [] delimiters.right := by
  cases delimiters with
  | parens => exact ⟨.same (.inr rfl) .nil, .same (.inr rfl) .nil⟩
  | cases => exact ⟨.same (.inl rfl) .nil, .same (.inl rfl) (.same (.inl rfl) .nil)⟩

/-- The name that a value is, if it is one. -/
def Value.path? : Value → Option String
  | .identifier path => some path
  | _ => none

/-- Uniform fragments are written alike, marks for names apart. -/
theorem Fragment.swapped_lexemes {f : Fragment} (hf : f.isUniform = true) (hp : f.Plain .mysql)
    (n m : Nat) :
    Swapped (f.lexemes .mysql n)
      (((f.stored .mysql).map Stored.value).filterMap Value.path?) (f.lexemes .sqlite m) := by
  induction f generalizing n m with
  | empty => exact .nil
  | token t => exact .same (.inl hf) .nil
  | value v =>
      have hv : v.path? = none := by
        have hv : v.isIdentifier = false := hp
        cases v <;> simp_all [Value.path?, Value.isIdentifier]
      simpa [Fragment.stored, hv, Fragment.lexemes] using Swapped.nil.slot (n + 1) (m + 1)
  | path p => exact Swapped.nil.name p
  | fail e => exact .nil
  | enclosed delimiters body ih =>
      obtain ⟨hleft, hright⟩ := swapped_delimiters delimiters
      simpa [Fragment.stored, Fragment.lexemes] using (hleft.append (ih hf hp n m)).append hright
  | append first second ihf ihs =>
      obtain ⟨hfirst, hsecond⟩ := Bool.and_eq_true_iff.1 hf
      simpa [Fragment.stored, Fragment.lexemes]
        using (ihf hfirst hp.1 n m).append (ihs hsecond hp.2 _ _)
  | secret s => cases hf
  | outputName name => cases hf
  | mode m => cases hf
  | crossed left right ihl ihr => cases hf
  | led v body ih => cases hf

theorem replaceMarks_cons {c : Char} {rest : List Char} (names : List String)
    (h : c ≠ '?' ∨ rest.head? ≠ some '?') :
    replaceMarks (c :: rest) names = c :: replaceMarks rest names := by
  rw [replaceMarks]
  rintro rest' name names' - hc hrest
  simp [hc, hrest] at h

theorem replaceMarks_append {cs rest : List Char} (names : List String) (h : '?' ∉ cs) :
    replaceMarks (cs ++ rest) names = cs ++ replaceMarks rest names := by
  induction cs with
  | nil => rfl
  | cons c cs ih =>
      simp only [List.mem_cons, not_or] at h
      rw [List.cons_append, replaceMarks_cons names (.inl (Ne.symm h.1)), ih h.2]
      rfl

/-- A lexeme that is spelled alike has no mark in it. -/
theorem mark_not_mem_text {t : Lexeme} {next : Option Lexeme}
    (ht : t.isOrdinary = true ∨ t.isPunctuation = true) (hfits : t.Fits .mysql next) :
    t.text .sqlite = t.text .mysql ∧ '?' ∉ (t.text .mysql).toList := by
  cases t with
  | word w =>
      have hw : Dialect.isWord w = true := by
        simp only [Lexeme.Fits] at hfits
        split at hfits
        · exact Dialect.isWord_of_mem (.inr hfits)
        · exact Dialect.isWord_of_mem (.inl hfits.1)
      refine ⟨rfl, fun hmem => ?_⟩
      have hall := (Bool.and_eq_true_iff.1 hw).2
      have hmark := List.all_eq_true.1 hall '?' hmem
      simp at hmark
  | literal s =>
      obtain rfl : s = "%" := by simpa [Dialect.literals] using hfits.1
      exact ⟨rfl, by decide⟩
  | space => exact ⟨rfl, by decide⟩
  | comma => exact ⟨rfl, by decide⟩
  | opening => exact ⟨rfl, by decide⟩
  | closing => exact ⟨rfl, by decide⟩
  | name parts => simp [Lexeme.isOrdinary, Lexeme.isPunctuation] at ht
  | slot index => simp [Lexeme.isOrdinary, Lexeme.isPunctuation] at ht
  | nameSlot => simp [Lexeme.isOrdinary, Lexeme.isPunctuation] at ht

/-- **Names in the place of marks turn the one text into the other.** -/
theorem Swapped.replaceMarks_eq {ts us : List Lexeme} {names : List String}
    (h : Swapped ts names us) (htidy : Tidy .mysql ts) :
    replaceMarks (render .mysql ts).toList (names.map (quotePath Dialect.sqlite.quote))
      = (render .sqlite us).toList := by
  induction h with
  | nil => rfl
  | name path _ ih =>
      rw [toList_render_cons, toList_render_cons, ← ih htidy.2]
      rfl
  | @slot ts us names i j _ ih =>
      rw [toList_render_cons, toList_render_cons, ← ih htidy.2]
      -- nothing that could be taken for the second half of a mark follows
      have hhead : (render .mysql ts).toList.head? ≠ some '?' := by
        intro hhead
        have hstop : Reader.isStop '?' = true := stops_render htidy.1 '?' hhead
        cases hstop
      simpa [Lexeme.text, Dialect.placeholder, Dialect.isPositional]
        using replaceMarks_cons (names.map (quotePath Dialect.sqlite.quote)) (.inr hhead)
  | same ht _ ih =>
      obtain ⟨htext, hmark⟩ := mark_not_mem_text ht htidy.1
      rw [toList_render_cons, toList_render_cons, htext, replaceMarks_append _ hmark, ih htidy.2]

/-! ## Statements -/

namespace Config

/-- The configuration for another dialect. -/
def on (config : Config) (dialect : Dialect) : Config :=
  { config with dialect }

theorem scope_on (config : Config) (dialect : Dialect) :
    (config.on dialect).scope = config.scope.on dialect :=
  rfl

/-- What a query that is read compiles to. -/
theorem select_of_read {json : Json} {query : Query} {omissions : List Omission}
    (hread : readSelectStatement json [] = .ok (query, omissions)) (config : Config) :
    config.select json
      = (Hurdle.passAll none (query.fragment config.scope none).hurdles).map
          (config.outcome (query.fragment config.scope none) omissions) := by
  rw [← finish_eq]
  simp [select, compile, hread, bind, Except.bind]

/-- A description that is not read compiles to the same error everywhere. -/
theorem select_of_error {json : Json} {e : CompileError}
    (hread : readSelectStatement json [] = .error e) (config : Config) :
    config.select json = .error e := by
  simp [select, compile, hread, bind, Except.bind]

end Config

/-- Whether a description, if it can be read, is a query without wrappers that keeps to a
vocabulary. -/
def Json.isBareQuery (json : Json) (v : Vocabulary) : Bool :=
  match readSelectStatement json [] with
  | .ok (query, _) => query.isBare v
  | .error _ => true

theorem Json.isBare_of_read {json : Json} {v : Vocabulary} (h : json.isBareQuery v = true)
    {query : Query} {omissions : List Omission}
    (hread : readSelectStatement json [] = .ok (query, omissions)) : query.isBare v = true := by
  simpa [Json.isBareQuery, hread] using h

/-- A compiled fragment that is uniform is turned into the text of the other dialect by names in
the place of its marks. -/
theorem Config.replaceMarks_outcome (config : Config) {f : Fragment} (hf : f.isUniform = true)
    (hphrase : Phrase .mysql f) {omissions : List Omission} {c c' : Compiled}
    (hc : (config.on .mysql).finish f omissions = .ok c)
    (hc' : (config.on .sqlite).finish f omissions = .ok c') :
    replaceMarks c.sql.toList
        ((c.values.filterMap Value.path?).map (quotePath Dialect.sqlite.quote))
      = c'.sql.toList := by
  rw [finish_eq] at hc hc'
  rcases f.run_or_stop .mysql .empty with ⟨mode, hpass, hrun⟩ | ⟨e, hstop, -⟩
  · have hpass : Hurdle.passAll none f.hurdles = .ok mode := hpass
    rw [hpass] at hc hc'
    cases hc
    cases hc'
    exact (f.swapped_lexemes hf hphrase.plain 0 0).replaceMarks_eq (hphrase.tidy hrun)
  · have hstop : Hurdle.passAll none f.hurdles = .error e := hstop
    rw [hstop] at hc
    cases hc

/-- **The dialects agree on queries without wrappers.** All of them refuse such a query with the
same error, or all compile it with the same omissions and the same values, names apart. If nothing
in it is spelled differently, the text with marks for names becomes that with quoted names by
putting the bound names, in quotes, in the place of the marks. -/
theorem Config.select_agrees_of_bare (config : Config) {json : Json}
    (hbare : json.isBareQuery .all = true) :
    ((∃ e, ∀ d, (config.on d).select json = .error e)
      ∨ ∃ omissions values, ∀ d, ∃ c, (config.on d).select json = .ok c
        ∧ c.omissions = omissions ∧ c.values.filter (fun v => !v.isIdentifier) = values)
    ∧ (json.isBareQuery .shared = true → ∀ c c', (config.on .mysql).select json = .ok c →
        (config.on .sqlite).select json = .ok c' →
        replaceMarks c.sql.toList
            ((c.values.filterMap Value.path?).map (quotePath Dialect.sqlite.quote))
          = c'.sql.toList) := by
  cases hread : readSelectStatement json [] with
  | error e =>
      refine ⟨.inl ⟨e, fun d => select_of_error hread _⟩, fun _ c c' hc _ => ?_⟩
      rw [select_of_error hread] at hc
      cases hc
  | ok result =>
      obtain ⟨query, omissions⟩ := result
      refine ⟨?_, fun hshared c c' hc hc' => ?_⟩
      · have hsame : ∀ d, Fragment.SameContent .mysql d
            (query.fragment (config.scope.on .mysql) none)
            (query.fragment (config.scope.on d) none) :=
          fun d => query.agreement (agreement_content .mysql d) config.scope
            (Json.isBare_of_read hbare hread)
        cases hpass : Hurdle.passAll none
            (query.fragment (config.scope.on .mysql) none).hurdles with
        | error e =>
            refine .inl ⟨e, fun d => ?_⟩
            rw [select_of_read hread, scope_on, ← (hsame d).1, hpass]
            rfl
        | ok mode =>
            refine .inr ⟨omissions,
              (query.fragment (config.scope.on .mysql) none).givenValues .mysql, fun d => ?_⟩
            refine ⟨(config.on d).outcome (query.fragment (config.scope.on d) none) omissions mode,
              ?_, rfl, (hsame d).2.symm⟩
            rw [select_of_read hread, scope_on, ← (hsame d).1, hpass]
            rfl
      · obtain ⟨heq, huniform⟩ := query.agreement agreement_shared config.scope
          (Json.isBare_of_read hshared hread)
        have hd : (config.scope.on .mysql).dialect = .mysql := rfl
        have hphrase : Phrase .mysql (query.fragment (config.scope.on .mysql) none) :=
          query.phrase_fragment hd (by simp)
        rw [select_of_read hread, ← finish_eq, scope_on] at hc hc'
        rw [← heq] at hc'
        exact config.replaceMarks_outcome huniform hphrase hc hc'

/-- A query with a subquery that refers to it. -/
def correlatedQuery : Json :=
  .obj [("table", .str "users"), ("limit", .num (.int 5)),
    ("where", .obj [("exists", .obj [("table", .str "logs"),
      ("where", .obj [("user", .str "users.id")])])])]

/-- All dialects compile the query with the same values, and the marks of the one text stand where
the other has its quoted names. -/
theorem Config.select_agrees_of_bare_correlated :
    (∃ omissions values, ∀ d, ∃ c, (({} : Config).on d).select correlatedQuery = .ok c
      ∧ c.omissions = omissions ∧ c.values.filter (fun v => !v.isIdentifier) = values)
    ∧ ∃ c c', (({} : Config).on .mysql).select correlatedQuery = .ok c
      ∧ (({} : Config).on .sqlite).select correlatedQuery = .ok c'
      ∧ c.sql = "SELECT * FROM ?? WHERE EXISTS (SELECT * FROM ?? WHERE ?? = ??) LIMIT ?"
      ∧ replaceMarks c.sql.toList
          ((c.values.filterMap Value.path?).map (quotePath Dialect.sqlite.quote))
        = c'.sql.toList := by
  have hbare : correlatedQuery.isBareQuery .all = true := rfl
  obtain ⟨c, hc, hsql⟩ : ∃ c, (({} : Config).on .mysql).select correlatedQuery = .ok c
      ∧ c.sql = "SELECT * FROM ?? WHERE EXISTS (SELECT * FROM ?? WHERE ?? = ??) LIMIT ?" :=
    ⟨_, rfl, rfl⟩
  obtain ⟨c', hc'⟩ : ∃ c', (({} : Config).on .sqlite).select correlatedQuery = .ok c' := ⟨_, rfl⟩
  obtain ⟨⟨e, he⟩ | hsame, htext⟩ := Config.select_agrees_of_bare {} hbare
  · cases hc.symm.trans (he .mysql)
  · exact ⟨hsame, c, c', hc, hc', hsql, htext rfl c c' hc hc'⟩

end QueryTree
