import QueryTree.Proofs.Binding.Written
import QueryTree.Proofs.Emission.Tree

/-!
# Paths as array literals

Where the part of a JSON value is asked for by an array of keys, the path is bound as the literal of
an array of texts: its dots are written as commas, and nothing is quoted.

* `ArrayLiteral.Denotes`: the literals of an array of texts.
* `ArrayLiteral.Denotes.unique`: a literal has one reading.
* `ArrayLiteral.denotes_jsonPath_iff`: a path is bound as a literal of its keys exactly if none of
  them would have to be quoted.
* `Core.json_path_literal`: the literal that a JSON wrapper binds, and what it denotes.
-/

namespace QueryTree

open Fragment (parens spaced operated)

/-! ## Literals -/

namespace ArrayLiteral

/-- Characters that stand for themselves only within quotes or after a backslash. -/
def isMark (c : Char) : Bool :=
  c = '\x7b' || c = '\x7d' || c = ',' || c = '"' || c = '\\'

/-- The blanks that are passed over around an element. -/
def isBlank (c : Char) : Bool :=
  c = ' ' || c = '\t' || c = '\n' || c = '\r' || c = '\x0b' || c = '\x0c'

/-- Whether an element may stand without quotes: it is not empty, has no marks in it and no blanks
around it, and is not the word for a missing element. -/
def isBare (element : List Char) : Bool :=
  !element.isEmpty && !element.any isMark && !element.head?.any isBlank
    && !element.getLast?.any isBlank && element.map Char.toLower != "null".toList

/-- `Quoted element text`: the text, with the closing quote, is the element within quotes. -/
inductive Quoted : List Char → List Char → Prop
  | close : Quoted [] ['"']
  | same {c : Char} {element text : List Char} : c ≠ '"' → c ≠ '\\' → Quoted element text →
      Quoted (c :: element) (c :: text)
  | escaped (c : Char) {element text : List Char} : Quoted element text →
      Quoted (c :: element) ('\\' :: c :: text)

/-- `Spelled element text`: the text stands for the element. -/
inductive Spelled : List Char → List Char → Prop
  | bare {element : List Char} : isBare element = true → Spelled element element
  | quoted {element text : List Char} : Quoted element text → Spelled element ('"' :: text)

/-- `Listed elements text`: the text, with the closing brace, lists the elements. -/
inductive Listed : List (List Char) → List Char → Prop
  | last {element text : List Char} : Spelled element text → Listed [element] (text ++ ['\x7d'])
  | cons {element text rest : List Char} {elements : List (List Char)} : Spelled element text →
      Listed elements rest → Listed (element :: elements) (text ++ ',' :: rest)

/-- `Denotes text elements`: the text is a literal of the elements. -/
inductive Denotes : List Char → List (List Char) → Prop
  | empty : Denotes ['\x7b', '\x7d'] []
  | listed {elements : List (List Char)} {text : List Char} : Listed elements text →
      Denotes ('\x7b' :: text) elements

/-! ## One reading -/

theorem Quoted.unique {e e' t t' r r' : List Char} (h : Quoted e t) (h' : Quoted e' t')
    (heq : t ++ r = t' ++ r') : e = e' ∧ r = r' := by
  induction h generalizing e' t' with
  | close =>
      cases h' with
      | close => exact ⟨rfl, (List.cons.inj heq).2⟩
      | same hquote _ _ => exact absurd (List.cons.inj heq).1.symm hquote
      | escaped _ _ => simp at heq
  | same hquote hbackslash _ ih =>
      cases h' with
      | close => exact absurd (List.cons.inj heq).1 hquote
      | same _ _ hrest =>
          obtain ⟨rfl, htail⟩ := List.cons.inj heq
          obtain ⟨rfl, rfl⟩ := ih hrest htail
          exact ⟨rfl, rfl⟩
      | escaped _ _ => exact absurd (List.cons.inj heq).1 hbackslash
  | escaped c _ ih =>
      cases h' with
      | close => simp at heq
      | same _ hbackslash _ => exact absurd (List.cons.inj heq).1.symm hbackslash
      | escaped _ hrest =>
          obtain ⟨rfl, htail⟩ := List.cons.inj (List.cons.inj heq).2
          obtain ⟨rfl, rfl⟩ := ih hrest htail
          exact ⟨rfl, rfl⟩

theorem isMark_of_bare {e : List Char} (h : isBare e = true) : ∀ c ∈ e, isMark c = false := by
  simp only [isBare, Bool.and_eq_true, Bool.not_eq_true', List.any_eq_false] at h
  intro c hc
  simpa using h.1.1.1.2 c hc

theorem ne_nil_of_bare {e : List Char} (h : isBare e = true) : e ≠ [] := by
  rintro rfl
  simp [isBare] at h

/-- Up to the first mark there is one element without quotes. -/
theorem bare_unique {e e' r r' : List Char} {c c' : Char} (h : ∀ x ∈ e, isMark x = false)
    (h' : ∀ x ∈ e', isMark x = false) (hc : isMark c = true) (hc' : isMark c' = true)
    (heq : e ++ c :: r = e' ++ c' :: r') : e = e' ∧ c :: r = c' :: r' := by
  induction e generalizing e' with
  | nil =>
      cases e' with
      | nil => exact ⟨rfl, heq⟩
      | cons x e' =>
          rw [(List.cons.inj heq).1, h' x (by simp)] at hc
          cases hc
  | cons x e ih =>
      cases e' with
      | nil =>
          rw [← (List.cons.inj heq).1, h x (by simp)] at hc'
          cases hc'
      | cons y e' =>
          obtain ⟨rfl, htail⟩ := List.cons.inj heq
          obtain ⟨rfl, hrest⟩ := ih (fun z hz => h z (by simp [hz]))
            (fun z hz => h' z (by simp [hz])) htail
          exact ⟨rfl, hrest⟩

/-- A text without quotes does not start like one in quotes. -/
theorem bare_ne_quoted {e t r r' : List Char} (h : isBare e = true) :
    e ++ r ≠ '"' :: t ++ r' := by
  cases e with
  | nil => exact absurd rfl (ne_nil_of_bare h)
  | cons c e =>
      intro heq
      have hc : isMark c = false := isMark_of_bare h c (by simp)
      rw [(List.cons.inj heq).1] at hc
      cases hc

theorem Spelled.unique {e e' t t' r r' : List Char} {c c' : Char} (h : Spelled e t)
    (h' : Spelled e' t') (hc : isMark c = true) (hc' : isMark c' = true)
    (heq : t ++ c :: r = t' ++ c' :: r') : e = e' ∧ c :: r = c' :: r' := by
  cases h with
  | bare hbare =>
      cases h' with
      | bare hbare' => exact bare_unique (isMark_of_bare hbare) (isMark_of_bare hbare') hc hc' heq
      | quoted _ => exact absurd heq (bare_ne_quoted hbare)
  | quoted hquoted =>
      cases h' with
      | bare hbare' => exact absurd heq.symm (bare_ne_quoted hbare')
      | quoted hquoted' => exact hquoted.unique hquoted' (List.cons.inj heq).2

theorem Listed.unique {es es' : List (List Char)} {t t' : List Char} (h : Listed es t)
    (h' : Listed es' t') (heq : t = t') : es = es' := by
  induction h generalizing es' t' with
  | last hspelled =>
      cases h' with
      | last hspelled' =>
          obtain ⟨rfl, -⟩ := hspelled.unique hspelled' (by decide) (by decide) heq
          rfl
      | cons hspelled' _ =>
          obtain ⟨-, hrest⟩ := hspelled.unique hspelled' (by decide) (by decide) heq
          simp at hrest
  | cons hspelled _ ih =>
      cases h' with
      | last hspelled' =>
          obtain ⟨-, hrest⟩ := hspelled.unique hspelled' (by decide) (by decide) heq
          simp at hrest
      | cons hspelled' hlisted' =>
          obtain ⟨rfl, hrest⟩ := hspelled.unique hspelled' (by decide) (by decide) heq
          rw [ih hlisted' (List.cons.inj hrest).2]

theorem Listed.ne_brace {es : List (List Char)} {t : List Char} (h : Listed es t) :
    t ≠ ['\x7d'] := by
  have hne : ∀ {e s : List Char}, Spelled e s → s ≠ [] := by
    rintro e s (hbare | hquoted)
    · exact ne_nil_of_bare hbare
    · simp
  cases h with
  | last hspelled => simpa using hne hspelled
  | cons hspelled _ =>
      intro heq
      simp_all [List.append_eq_singleton_iff]

/-- **A literal has one reading.** -/
theorem Denotes.unique {t : List Char} {es es' : List (List Char)} (h : Denotes t es)
    (h' : Denotes t es') : es = es' := by
  cases h with
  | empty =>
      cases h' with
      | empty => rfl
      | listed hlisted => exact absurd rfl hlisted.ne_brace
  | listed hlisted =>
      cases h' with
      | empty => exact absurd rfl hlisted.ne_brace
      | listed hlisted' => exact hlisted.unique hlisted' rfl

/-! ## Elements written as they are -/

/-- Elements as they are, each with what ends it. -/
def unquoted : List (List Char) → List Char
  | [] => ['\x7d']
  | [element] => element ++ ['\x7d']
  | element :: elements => element ++ ',' :: unquoted elements

theorem Quoted.length_lt {e t : List Char} (h : Quoted e t) : e.length < t.length := by
  induction h with
  | close => simp
  | same _ _ _ ih => simpa using ih
  | escaped c _ ih =>
      simp only [List.length_cons]
      omega

/-- Quotes make a text longer than its element. -/
theorem Spelled.bare_or_longer {e t : List Char} (h : Spelled e t) :
    (isBare e = true ∧ t = e) ∨ e.length < t.length := by
  cases h with
  | bare hbare => exact .inl ⟨hbare, rfl⟩
  | quoted hquoted =>
      refine .inr ?_
      have := hquoted.length_lt
      simp only [List.length_cons]
      omega

/-- Only elements that need no quotes are listed in the length that they have without quotes. -/
theorem Listed.bare_or_longer {es : List (List Char)} {t : List Char} (h : Listed es t) :
    (∀ e ∈ es, isBare e = true) ∧ t.length = (unquoted es).length
      ∨ (unquoted es).length < t.length := by
  induction h with
  | last hspelled =>
      rcases hspelled.bare_or_longer with ⟨hbare, rfl⟩ | hlonger
      · exact .inl ⟨by simpa using hbare, rfl⟩
      · exact .inr (by simpa [unquoted] using hlonger)
  | @cons e t rest es hspelled hlisted ih =>
      have hcons : (unquoted (e :: es)).length = e.length + 1 + (unquoted es).length := by
        cases hlisted <;> simp [unquoted] <;> omega
      simp only [hcons, List.length_append, List.length_cons]
      rcases hspelled.bare_or_longer with ⟨hbare, rfl⟩ | hlonger
      · rcases ih with ⟨hes, hlength⟩ | hlonger
        · exact .inl ⟨List.forall_mem_cons.2 ⟨hbare, hes⟩, by omega⟩
        · exact .inr (by omega)
      · rcases ih with ⟨-, hlength⟩ | hlonger'
        · exact .inr (by omega)
        · exact .inr (by omega)

theorem listed_unquoted {es : List (List Char)} (hne : es ≠ [])
    (h : ∀ e ∈ es, isBare e = true) : Listed es (unquoted es) := by
  induction es with
  | nil => exact absurd rfl hne
  | cons e es ih =>
      rw [List.forall_mem_cons] at h
      cases es with
      | nil => exact .last (.bare h.1)
      | cons e' es => exact .cons (.bare h.1) (ih (by simp) h.2)

/-- **Without quotes, elements are a literal of themselves exactly if none of them needs
quotes.** -/
theorem denotes_unquoted_iff {es : List (List Char)} (hne : es ≠ []) :
    Denotes ('\x7b' :: unquoted es) es ↔ ∀ e ∈ es, isBare e = true := by
  constructor
  · intro h
    generalize htext : '\x7b' :: unquoted es = text at h
    cases h with
    | empty => exact absurd rfl hne
    | listed hlisted =>
        obtain rfl := (List.cons.inj htext).2
        rcases hlisted.bare_or_longer with ⟨hbare, -⟩ | hlonger
        · exact hbare
        · exact absurd hlonger (Nat.lt_irrefl _)
  · intro h
    exact .listed (listed_unquoted hne h)

/-- Dots written as commas part the keys of a path. -/
theorem unquoted_splitOn (cs : List Char) :
    unquoted (Text.splitOn '.' cs)
      = cs.map (fun c => if c = '.' then ',' else c) ++ ['\x7d'] := by
  induction cs with
  | nil => rfl
  | cons c cs ih =>
      rw [Text.splitOn, List.map_cons]
      cases hparts : Text.splitOn '.' cs with
      | nil => exact absurd hparts (Text.splitOn_ne_nil '.' cs)
      | cons part parts =>
          rw [hparts] at ih
          by_cases hc : c = '.'
          · rw [if_pos hc, if_pos hc, List.cons_append, ← ih]
            rfl
          · rw [if_neg hc, if_neg hc, List.cons_append, ← ih]
            cases parts <;> rfl

/-- A path is bound as its keys without quotes. -/
theorem toList_jsonPath (path : String) : (Dialect.postgresql.jsonPath path).toList
    = '\x7b' :: unquoted ((Text.pathParts path).map String.toList) := by
  rw [Text.toList_pathParts, unquoted_splitOn]
  simp [Dialect.jsonPath]

/-- **A path is bound as a literal of its keys exactly if none of them needs quotes.** -/
theorem denotes_jsonPath_iff (path : String) :
    Denotes (Dialect.postgresql.jsonPath path).toList ((Text.pathParts path).map String.toList)
      ↔ ∀ key ∈ Text.pathParts path, isBare key.toList = true := by
  have hne : (Text.pathParts path).map String.toList ≠ [] := by
    simpa using Text.pathParts_ne_nil path
  rw [toList_jsonPath, denotes_unquoted_iff hne, List.forall_mem_map]

end ArrayLiteral

/-! ## JSON wrappers -/

/-- A JSON value before its finishing steps. -/
def jsonBuilt (scope : Scope) (options : JsonOptions) (body : JsonBody) (source : Option Query) :
    Fragment :=
  match source with
  | some query => parens (query.fragment scope (some fun inner => body.fragment options inner))
  | none => body.fragment options scope

theorem Core.fragment_json (scope : Scope) (options : JsonOptions) (body : JsonBody)
    (source : Option Query) : (Core.json options body source).fragment scope
      = options.apply scope.dialect (jsonBuilt scope options body source) := by
  cases source <;> rfl

namespace JsonOptions

variable (options : JsonOptions) (f : Fragment)

theorem hurdles_apply : (options.apply .postgresql f).hurdles = f.hurdles := by
  rw [apply]
  cases options.extract <;> cases options.contains <;>
    simp [Dialect.jsonExtract, Dialect.jsonContains?, operated, Fragment.cast, spaced,
      Fragment.text, Fragment.hurdles]

/-- The path is bound after the value, and then what the value has to contain. -/
theorem stored_apply : (options.apply .postgresql f).stored .postgresql
    = f.stored .postgresql
      ++ (options.extract.toList.map fun path => Stored.text (Dialect.postgresql.jsonPath path))
      ++ options.contains.toList.map fun candidate => Stored.text candidate.compact := by
  rw [apply]
  cases options.extract <;> cases options.contains <;>
    simp [Dialect.jsonExtract, Dialect.jsonContains?, operated, Fragment.cast, spaced,
      Fragment.text, Fragment.stored, Stored.text]

end JsonOptions

/-- **The path of a JSON wrapper means its keys exactly if none of them needs quotes.** Where the
part of a JSON value is asked for by an array of keys, a wrapper that is written binds the path
after the values of what it is about, and before what that has to contain. The text bound for the
path lists its keys without quotes. It is a literal of the keys, and of no other elements, exactly
if each key may stand without quotes. -/
theorem Core.json_path_literal {scope : Scope} (hd : scope.dialect = .postgresql)
    (options : JsonOptions) (body : JsonBody) (source : Option Query) {path : String}
    (hpath : options.extract = some path) {b b' : Bindings} {text : String}
    (h : ((Core.json options body source).fragment scope).sql .postgresql b = (.ok text, b')) :
    ∃ us alone literal,
      (jsonBuilt scope options body source).run .postgresql .empty = (.ok us, alone)
        ∧ b'.values = b.values ++ alone.values ++ [.text literal]
          ++ options.contains.toList.map (fun candidate => .text candidate.compact)
        ∧ literal.toList
          = '\x7b' :: ArrayLiteral.unquoted ((Text.pathParts path).map String.toList)
        ∧ ((∀ elements : List String,
            ArrayLiteral.Denotes literal.toList (elements.map String.toList)
              ↔ elements = Text.pathParts path)
          ↔ ∀ key ∈ Text.pathParts path, ArrayLiteral.isBare key.toList = true) := by
  have hhurdles := ((Core.json options body source).phrase_fragment hd).plain.hurdles_of_sql
    (by decide) h
  have hvalues := Fragment.values_of_sql h
  rw [fragment_json, hd] at hhurdles hvalues
  rw [JsonOptions.hurdles_apply] at hhurdles
  refine ⟨_, _, Dialect.postgresql.jsonPath path,
    Fragment.run_of_hurdles hhurdles .postgresql .empty, ?_, ArrayLiteral.toList_jsonPath path, ?_⟩
  · rw [hvalues, JsonOptions.stored_apply, hpath]
    simp [Fragment.extend, Bindings.empty, Stored.text]
  · rw [← ArrayLiteral.denotes_jsonPath_iff]
    constructor
    · intro hreads
      exact (hreads _).2 rfl
    · intro hdenotes elements
      constructor
      · intro hother
        exact List.map_injective_iff.2 (fun _ _ => String.toList_injective)
          (hother.unique hdenotes)
      · rintro rfl
        exact hdenotes

/-- The key `a,b` is bound as if it were the two keys `a` and `b`. -/
theorem Core.json_path_literal_comma :
    let scope := Scope.outermost .postgresql none
    let options : JsonOptions := ⟨true, false, some "a,b", none⟩
    let wrapper := Core.json options (.array [.number (.int 7)]) none
    scope.dialect = .postgresql ∧ options.extract = some "a,b" ∧
    ∃ text b', (wrapper.fragment scope).sql .postgresql .empty = (.ok text, b')
      ∧ b'.values = [.int 7, .text "\x7ba,b\x7d"]
      ∧ (¬ ∀ elements : List String,
        ArrayLiteral.Denotes "\x7ba,b\x7d".toList (elements.map String.toList)
          ↔ elements = Text.pathParts "a,b")
      ∧ ArrayLiteral.Denotes "\x7ba,b\x7d".toList [['a'], ['b']] := by
  intro scope options wrapper
  have hpath : Dialect.postgresql.jsonPath "a,b" = "\x7ba,b\x7d" := by decide
  have hfragment : wrapper.fragment scope = Dialect.postgresql.jsonExtract
      (Fragment.call "json_build_array" [.value (.int 7)]) (.text "\x7ba,b\x7d") :=
    congrArg (fun path => Dialect.postgresql.jsonExtract _ (.text path)) hpath
  have hsql : (wrapper.fragment scope).sql .postgresql .empty
      = (.ok "(CAST(json_build_array($1) AS JSONB) #> CAST($2 AS TEXT[]))",
        ⟨2, [.int 7, .text "\x7ba,b\x7d"], none⟩) := by
    rw [hfragment]
    rfl
  obtain ⟨us, alone, literal, hrun, hvalues, -, hiff⟩ :=
    Core.json_path_literal rfl options _ _ rfl hsql
  have hliteral : literal = "\x7ba,b\x7d" := by
    have hlast := congrArg List.getLast? hvalues
    simpa [options] using hlast.symm
  subst hliteral
  refine ⟨rfl, rfl, _, _, hsql, rfl, fun hreads => ?_, ?_⟩
  · exact absurd (hiff.1 hreads) (by decide)
  · exact .listed (.cons (.bare (by decide)) (.last (.bare (by decide))))

end QueryTree
