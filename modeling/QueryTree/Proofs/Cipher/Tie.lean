import QueryTree.Proofs.Binding.Written
import QueryTree.Proofs.Emission.Grammar
import QueryTree.Proofs.Statement.BlockMode

/-!
# Fragments that differ in keys

Two fragments that differ in keys only have a common fate: if the keys are alike the fragments are
the same, and if the fragments are written and bound alike the keys are.

* `Imprint`, `Fragment.imprint`: what a fragment writes and binds, wherever it stands.
* `Fragment.Tied`, `TiedAll`: fragments that are the same exactly if some keys are alike.
* `Tied.append`, `Tied.crossed`, `TiedAll.join`: fragments put together.
* `Tied.castOptional`, `Tied.dateChange`, `Tied.jsonOptions`: steps of an expression.
* `Cipher.Alike`, `Tied.cipher`: keys that a dialect writes alike, and ciphers with two keys.
* `Tied.sameExactlyIf`: such fragments compile to the same exactly if the keys are alike.
-/

namespace QueryTree

open Fragment (word literal tokens join spaced commas operated words parens call)
open Cipher (Key)

/-! ## Imprints -/

/-- A lexeme without the number that a placeholder may have. -/
def Lexeme.unnumbered : Lexeme → Lexeme
  | .slot _ => .slot 0
  | t => t

/-- What is written and bound, apart from the numbers of placeholders. -/
structure Imprint where
  lexemes : List Lexeme
  values : List Value

namespace Imprint

/-- There are as many lexemes in both, and as many values. -/
structure Level (p q : Imprint) : Prop where
  lexemes : p.lexemes.length = q.lexemes.length
  values : p.values.length = q.values.length

/-- An imprint after another one. -/
def append (p q : Imprint) : Imprint :=
  ⟨p.lexemes ++ q.lexemes, p.values ++ q.values⟩

/-- An imprint after another one, with its values in front. -/
def crossed (p q : Imprint) : Imprint :=
  ⟨p.lexemes ++ q.lexemes, q.values ++ p.values⟩

variable {p p' q q' : Imprint}

theorem Level.append (hp : p.Level p') (hq : q.Level q') : (p.append q).Level (p'.append q') := by
  constructor
  · simp [Imprint.append, hp.lexemes, hq.lexemes]
  · simp [Imprint.append, hp.values, hq.values]

theorem Level.crossed (hp : p.Level p') (hq : q.Level q') :
    (p.crossed q).Level (p'.crossed q') := by
  constructor
  · simp [Imprint.crossed, hp.lexemes, hq.lexemes]
  · simp [Imprint.crossed, hp.values, hq.values]

/-- Imprints that are level are told apart in what they are put together to. -/
theorem append_inj (hp : p.Level p') (h : p.append q = p'.append q') : p = p' ∧ q = q' := by
  obtain ⟨ts, vs⟩ := p
  obtain ⟨ts', vs'⟩ := p'
  simp only [Imprint.append, mk.injEq] at h
  obtain ⟨rfl, htexts⟩ := List.append_inj h.1 hp.lexemes
  obtain ⟨rfl, hvalues⟩ := List.append_inj h.2 hp.values
  exact ⟨rfl, by cases q; cases q'; simp_all⟩

/-- Both have to be level here, since the values of the second stand in front. -/
theorem crossed_inj (hp : p.Level p') (hq : q.Level q') (h : p.crossed q = p'.crossed q') :
    p = p' ∧ q = q' := by
  obtain ⟨ts, vs⟩ := p
  obtain ⟨ts', vs'⟩ := p'
  obtain ⟨us, ws⟩ := q
  obtain ⟨us', ws'⟩ := q'
  simp only [Imprint.crossed, mk.injEq] at h
  obtain ⟨rfl, rfl⟩ := List.append_inj h.1 hp.lexemes
  obtain ⟨rfl, rfl⟩ := List.append_inj h.2 hq.values
  exact ⟨rfl, rfl⟩

end Imprint

namespace Fragment

variable {dialect : Dialect}

/-- What a fragment writes and binds, wherever it stands. -/
def imprint (dialect : Dialect) (f : Fragment) : Imprint :=
  ⟨(f.lexemes dialect 0).map Lexeme.unnumbered, (f.stored dialect).map Stored.value⟩

/-- Only the numbers of placeholders depend on what is bound before. -/
theorem map_unnumbered_lexemes (f : Fragment) (n : Nat) :
    (f.lexemes dialect n).map Lexeme.unnumbered = (f.imprint dialect).lexemes := by
  suffices ∀ n k, (f.lexemes dialect n).map Lexeme.unnumbered
      = (f.lexemes dialect k).map Lexeme.unnumbered from this n 0
  induction f with
  | empty | token | mode | fail => exact fun _ _ => rfl
  | value | secret => exact fun _ _ => rfl
  | path p => exact fun _ _ => rfl
  | outputName name =>
      intro n k
      simp only [lexemes]
      split <;> rfl
  | enclosed delimiters body ih =>
      intro n k
      simp only [lexemes, List.map_append, ih n k]
  | append first second ihf ihs =>
      intro n k
      simp only [lexemes, List.map_append]
      rw [ihf n k, ihs (n + _) (k + _)]
  | crossed left right ihl ihr =>
      intro n k
      simp only [lexemes, List.map_append]
      rw [ihr n k, ihl (n + _) (k + _)]
  | led v body ih =>
      intro n k
      simp only [lexemes, List.map_cons, ih n k, Lexeme.unnumbered]

theorem imprint_append (f g : Fragment) :
    (append f g).imprint dialect = (f.imprint dialect).append (g.imprint dialect) := by
  simp only [imprint, Imprint.append, lexemes, stored, List.map_append, Imprint.mk.injEq,
    List.append_cancel_left_eq, and_true]
  exact g.map_unnumbered_lexemes _

/-- Values are bound the other way round, and lexemes are not. -/
theorem imprint_crossed (f g : Fragment) :
    (crossed f g).imprint dialect = (f.imprint dialect).crossed (g.imprint dialect) := by
  simp only [imprint, Imprint.crossed, lexemes, stored, List.map_append, Imprint.mk.injEq,
    List.append_cancel_right_eq, and_true]
  exact f.map_unnumbered_lexemes _

/-- All that binding the fragment has to get over is that block mode. -/
def Passes (f : Fragment) (m : Cipher.Mode) : Prop :=
  ∀ hurdle ∈ f.hurdles, hurdle = .mode m

theorem passes_append {f g : Fragment} {m : Cipher.Mode} :
    (append f g).Passes m ↔ f.Passes m ∧ g.Passes m := by
  simp [Passes, hurdles, or_imp, forall_and]

theorem passes_crossed {f g : Fragment} {m : Cipher.Mode} :
    (crossed f g).Passes m ↔ f.Passes m ∧ g.Passes m := by
  simp [Passes, hurdles, or_imp, forall_and, and_comm]

theorem not_passes_fail (e : CompileError) (m : Cipher.Mode) : ¬ (fail e).Passes m := by
  simp [Passes, hurdles]

/-- What is bound has nothing but the block mode in its way that is in force afterwards. -/
theorem passes_of_passAll {f : Fragment} {mode mode' : Option Cipher.Mode}
    (h : Hurdle.passAll mode f.hurdles = .ok mode') {m : Cipher.Mode} (hm : ∀ k ∈ mode', k = m) :
    f.Passes m := by
  intro hurdle hmem
  cases hurdle with
  | error e => exact absurd hmem (Hurdle.not_mem_of_passAll h e)
  | mode k => rw [hm k ((Hurdle.passAll_ok h).2.1 k hmem)]

end Fragment

/-! ## Fragments that are tied -/

section

variable {α : Type} {dialect : Dialect} {K : α → Prop} {ds es : List α}

/-- The two fragments are the same if what `K` asks for holds throughout the list, and if they are
written and bound alike it does. -/
structure Fragment.Tied (dialect : Dialect) (K : α → Prop) (ds : List α) (f g : Fragment) :
    Prop where
  eq : (∀ d ∈ ds, K d) → f = g
  /-- Under one block mode as much is written and bound for both. -/
  level {m : Cipher.Mode} : f.Passes m → g.Passes m →
    (f.imprint dialect).Level (g.imprint dialect)
  alike {m : Cipher.Mode} : f.Passes m → g.Passes m →
    f.imprint dialect = g.imprint dialect → ∀ d ∈ ds, K d

/-- The same for two fragments or none. -/
inductive Fragment.TiedOption (dialect : Dialect) (K : α → Prop) :
    List α → Option Fragment → Option Fragment → Prop
  | none : TiedOption dialect K [] none none
  | some {ds : List α} {f g : Fragment} :
      Fragment.Tied dialect K ds f g → TiedOption dialect K ds (some f) (some g)

/-- The same for fragments, one after the other. -/
inductive TiedAll (dialect : Dialect) (K : α → Prop) :
    List α → List Fragment → List Fragment → Prop
  | nil : TiedAll dialect K [] [] []
  | cons {ds es : List α} {f g : Fragment} {fs gs : List Fragment} :
      Fragment.Tied dialect K ds f g → TiedAll dialect K es fs gs →
      TiedAll dialect K (ds ++ es) (f :: fs) (g :: gs)

open Fragment (Tied TiedOption)

namespace Fragment.Tied

variable {f f' g g' : Fragment}

/-! ### Putting two fragments together -/

/-- What does not depend on keys is tied by none. -/
theorem same (f : Fragment) : Tied dialect K [] f f where
  eq _ := rfl
  level _ _ := ⟨rfl, rfl⟩
  alike _ _ _ := by simp

/-- An error is tied to itself, whatever else would have been written. -/
theorem fail (ds : List α) (e : CompileError) : Tied dialect K ds (.fail e) (.fail e) where
  eq _ := rfl
  level hf _ := absurd hf (not_passes_fail e _)
  alike hf _ := absurd hf (not_passes_fail e _)

theorem congr (h : Tied dialect K ds f g) (heq : ds = es) : Tied dialect K es f g :=
  heq ▸ h

/-- What ties two fragments may be told of other things. -/
theorem map {β : Type} {K' : β → Prop} {φ : α → β} (hK : ∀ d, K d ↔ K' (φ d))
    (h : Tied dialect K ds f g) : Tied dialect K' (ds.map φ) f g where
  eq hall := h.eq fun d hd => (hK d).2 (hall _ (List.mem_map_of_mem hd))
  level := h.level
  alike hf hg heq := by
    rw [List.forall_mem_map]
    exact fun d hd => (hK d).1 (h.alike hf hg heq d hd)

/-- **Fragments put together are tied by what ties each of them**, as they can be told apart again.
-/
theorem append (hf : Tied dialect K ds f f') (hg : Tied dialect K es g g') :
    Tied dialect K (ds ++ es) (f ++ g) (f' ++ g') where
  eq h := by
    rw [List.forall_mem_append] at h
    rw [hf.eq h.1, hg.eq h.2]
  level h h' := by
    obtain ⟨hl, hr⟩ := passes_append.1 h
    obtain ⟨hl', hr'⟩ := passes_append.1 h'
    exact imprint_append f g ▸ imprint_append f' g' ▸ (hf.level hl hl').append (hg.level hr hr')
  alike h h' heq := by
    obtain ⟨hl, hr⟩ := passes_append.1 h
    obtain ⟨hl', hr'⟩ := passes_append.1 h'
    obtain ⟨hleft, hright⟩ := Imprint.append_inj (hf.level hl hl')
      ((imprint_append f g).symm.trans (heq.trans (imprint_append f' g')))
    exact List.forall_mem_append.2 ⟨hf.alike hl hl' hleft, hg.alike hr hr' hright⟩

/-- The same for fragments that are bound the other way round. -/
theorem crossed (hf : Tied dialect K ds f f') (hg : Tied dialect K es g g') :
    Tied dialect K (ds ++ es) (.crossed f g) (.crossed f' g') where
  eq h := by
    rw [List.forall_mem_append] at h
    rw [hf.eq h.1, hg.eq h.2]
  level h h' := by
    obtain ⟨hl, hr⟩ := passes_crossed.1 h
    obtain ⟨hl', hr'⟩ := passes_crossed.1 h'
    exact imprint_crossed f g ▸ imprint_crossed f' g' ▸
      (hf.level hl hl').crossed (hg.level hr hr')
  alike h h' heq := by
    obtain ⟨hl, hr⟩ := passes_crossed.1 h
    obtain ⟨hl', hr'⟩ := passes_crossed.1 h'
    obtain ⟨hleft, hright⟩ := Imprint.crossed_inj (hf.level hl hl') (hg.level hr hr')
      ((imprint_crossed f g).symm.trans (heq.trans (imprint_crossed f' g')))
    exact List.forall_mem_append.2 ⟨hf.alike hl hl' hleft, hg.alike hr hr' hright⟩

theorem enclosed (delimiters : Delimiters) (h : Tied dialect K ds f g) :
    Tied dialect K ds (.enclosed delimiters f) (.enclosed delimiters g) where
  eq hall := by rw [h.eq hall]
  level hf hg := by
    have hlevel := h.level hf hg
    refine ⟨?_, hlevel.values⟩
    simpa [imprint, lexemes] using hlevel.lexemes
  alike hf hg heq := by
    refine h.alike hf hg ?_
    simpa [imprint, lexemes, stored] using heq

theorem led (v : Value) (h : Tied dialect K ds f g) :
    Tied dialect K ds (.led v f) (.led v g) where
  eq hall := by rw [h.eq hall]
  level hf hg := by
    have hlevel := h.level hf hg
    constructor
    · simpa [imprint, lexemes] using hlevel.lexemes
    · simpa [imprint, stored] using hlevel.values
  alike hf hg heq := by
    refine h.alike hf hg ?_
    simpa [imprint, lexemes, stored, Lexeme.unnumbered] using heq

theorem after (c : Fragment) (h : Tied dialect K ds f g) : Tied dialect K ds (c ++ f) (c ++ g) :=
  (same c).append h

theorem before (c : Fragment) (h : Tied dialect K ds f g) :
    Tied dialect K ds (f ++ c) (g ++ c) := by
  simpa using h.append (same c)

/-- An error after a fragment, in place of all that would have followed. -/
theorem halted (h : Tied dialect K ds f g) (e : CompileError) (es : List α) :
    Tied dialect K (ds ++ es) (f ++ .fail e) (g ++ .fail e) :=
  h.append (fail es e)

theorem parens (h : Tied dialect K ds f g) : Tied dialect K ds (parens f) (parens g) :=
  h.enclosed .parens

theorem ite {c : Prop} [Decidable c] (hf : Tied dialect K ds f f') (hg : Tied dialect K ds g g') :
    Tied dialect K ds (if c then f else g) (if c then f' else g') := by
  split
  · exact hf
  · exact hg

end Fragment.Tied

/-! ### Putting lists together -/

namespace TiedAll

variable {f g : Fragment} {fs gs : List Fragment}

/-- The last of several fragments. -/
theorem last (h : Tied dialect K ds f g) : TiedAll dialect K ds [f] [g] := by
  simpa using cons h nil

/-- A fragment in front that both sides have. -/
theorem skip (f : Fragment) (h : TiedAll dialect K ds fs gs) :
    TiedAll dialect K ds (f :: fs) (f :: gs) :=
  cons (.same f) h

theorem same (fs : List Fragment) : TiedAll dialect K [] fs fs := by
  induction fs with
  | nil => exact .nil
  | cons f fs ih => exact ih.skip f

/-- Fragments after the first that both sides have. -/
theorem lead (h : Tied dialect K ds f g) (fs : List Fragment) :
    TiedAll dialect K ds (f :: fs) (g :: fs) := by
  simpa using cons h (same fs)

theorem isEmpty_eq (h : TiedAll dialect K ds fs gs) : fs.isEmpty = gs.isEmpty := by
  cases h <;> rfl

/-- **Fragments with a separator between them are tied by what ties each of them.** -/
theorem join (separator : List Lexeme) (h : TiedAll dialect K ds fs gs) :
    Tied dialect K ds (join separator fs) (join separator gs) := by
  induction h with
  | nil => exact .same _
  | cons hf hrest ih =>
      cases hrest with
      | nil => simpa [Fragment.join] using hf
      | cons _ _ => exact (hf.before _).append ih

theorem spaced (h : TiedAll dialect K ds fs gs) : Tied dialect K ds (spaced fs) (spaced gs) :=
  h.join _

theorem commas (h : TiedAll dialect K ds fs gs) : Tied dialect K ds (commas fs) (commas gs) :=
  h.join _

theorem operated (operator : String) (h : TiedAll dialect K ds fs gs) :
    Tied dialect K ds (operated operator fs) (operated operator gs) :=
  h.join _

theorem call (function : String) (h : TiedAll dialect K ds fs gs) :
    Tied dialect K ds (call function fs) (call function gs) :=
  h.commas.parens.after _

theorem intersperse (separator : Fragment) (h : TiedAll dialect K ds fs gs) :
    TiedAll dialect K ds (fs.intersperse separator) (gs.intersperse separator) := by
  induction h with
  | nil => exact .nil
  | cons hf hrest ih =>
      cases hrest with
      | nil => exact .cons hf .nil
      | cons _ _ => exact .cons hf (ih.skip separator)

theorem nest (junction : Junction) (h : TiedAll dialect K ds fs gs) :
    Tied dialect K ds (junction.nest fs) (junction.nest gs) := by
  cases h with
  | nil => exact .same _
  | cons hf hrest =>
      cases hrest with
      | nil => simpa [Junction.nest] using hf
      | cons hg hrest => exact ((cons hf (cons hg hrest)).operated _).parens

/-- Without any condition there is an error, on both sides. -/
theorem group (junction : Junction) (h : TiedAll dialect K ds fs gs) :
    Tied dialect K ds (junction.group fs) (junction.group gs) := by
  rw [Junction.group, Junction.group, h.isEmpty_eq]
  exact .ite (.fail _ _) (h.nest junction)

theorem listClause (keywords : List String) (h : TiedAll dialect K ds fs gs) :
    Tied dialect K ds (listClause keywords fs) (listClause keywords gs) := by
  cases h with
  | nil => exact .same _
  | cons hf hrest =>
      exact (skip _ (last (cons hf hrest).commas)).spaced.after _

theorem conditionClause (keyword : String) (junction : Junction) (h : TiedAll dialect K ds fs gs) :
    Tied dialect K ds (conditionClause keyword junction fs)
      (conditionClause keyword junction gs) := by
  cases h with
  | nil => exact .same _
  | cons hf hrest =>
      exact (skip _ (last ((cons hf hrest).operated _))).spaced.after _

/-- Texts are put together by a call or by an operator. -/
theorem concatFragment (separator : Option String) (h : TiedAll dialect K ds fs gs) :
    Tied dialect K ds (concatFragment dialect separator fs)
      (concatFragment dialect separator gs) := by
  cases dialect with
  | sqlite =>
      cases separator with
      | none => exact (h.operated _).parens
      | some separator => exact ((h.intersperse _).operated _).parens
  | mysql | postgresql =>
      cases separator with
      | none => exact h.call _
      | some separator => exact (h.skip _).call _

end TiedAll

namespace Fragment.Tied

variable {f f' g g' : Fragment} {fs gs : List Fragment}

/-! ### Conditions -/

theorem clause (keywords : List String) (h : Tied dialect K ds f g) :
    Tied dialect K ds (clause keywords f) (clause keywords g) :=
  (TiedAll.skip _ (.last h)).spaced.after _

theorem equals (hf : Tied dialect K ds f f') (hg : Tied dialect K es g g') :
    Tied dialect K (ds ++ es) (equals f g) (equals f' g') :=
  (TiedAll.cons hf (.skip _ (.last hg))).spaced

theorem isNullTest (h : Tied dialect K ds f g) :
    Tied dialect K ds (isNullTest f) (isNullTest g) :=
  (TiedAll.lead h _).spaced

theorem isNotNullTest (h : Tied dialect K ds f g) :
    Tied dialect K ds (isNotNullTest f) (isNotNullTest g) :=
  (TiedAll.lead h _).spaced

/-- An empty list is refused, on both sides. -/
theorem inList (field : String) (comparator : Comparator) (hf : Tied dialect K ds f g)
    (hs : TiedAll dialect K es fs gs) :
    Tied dialect K (ds ++ es) (inList field comparator f fs) (inList field comparator g gs) := by
  rw [QueryTree.inList, QueryTree.inList, hs.isEmpty_eq]
  exact .ite (.fail _ _) (TiedAll.cons hf (.skip _ (.last hs.commas.parens))).spaced

/-! ### Steps of an expression -/

theorem call (function : String) (fs : List Fragment) (h : Tied dialect K ds f g) :
    Tied dialect K ds (call function (f :: fs)) (call function (g :: fs)) :=
  (TiedAll.lead h fs).call function

theorem cast (type : List String) (h : Tied dialect K ds f g) :
    Tied dialect K ds (f.cast type) (g.cast type) :=
  (TiedAll.lead h _).spaced.parens.after _

/-- A type that the dialect lacks is an error, on both sides. -/
theorem castOptional (d : Dialect) (type : Option CastType) (h : Tied dialect K ds f g) :
    Tied dialect K ds (d.castOptional f type) (d.castOptional g type) := by
  cases type with
  | none => exact h
  | some type =>
      simp only [Dialect.castOptional, Dialect.castTo]
      split
      · exact h.cast _
      · exact h.before _

theorem textOperand (d : Dialect) (h : Tied dialect K ds f g) :
    Tied dialect K ds (d.textOperand f) (d.textOperand g) := by
  cases d with
  | postgresql => exact h.cast _
  | mysql | sqlite => exact h

/-- **A comparison is tied by what ties its sides**, with wildcards around the text if there are
any. -/
theorem compareWith (d : Dialect) (comparator : Comparator) (hf : Tied dialect K ds f f')
    (hg : Tied dialect K es g g') :
    Tied dialect K (ds ++ es) (compareWith d comparator f g) (compareWith d comparator f' g') := by
  refine (TiedAll.cons hf (.skip _ (.last ?_))).spaced
  cases comparator.wildcards with
  | none => exact hg
  | some ends =>
      have hparts : TiedAll dialect K es
          ([d.textOperand g] ++ if ends.2 then [literal "%"] else [])
          ([d.textOperand g'] ++ if ends.2 then [literal "%"] else []) :=
        .lead (hg.textOperand d) _
      have hall : TiedAll dialect K es
          ((if ends.1 then [literal "%"] else []) ++ [d.textOperand g]
            ++ if ends.2 then [literal "%"] else [])
          ((if ends.1 then [literal "%"] else []) ++ [d.textOperand g']
            ++ if ends.2 then [literal "%"] else []) := by
        cases ends.1 with
        | false => exact hparts
        | true => exact hparts.skip _
      cases d with
      | mysql => exact hall.call _
      | postgresql | sqlite => exact hall.operated _

theorem aliased (alias? : Option String) (h : Tied dialect K ds f g) :
    Tied dialect K ds (aliased alias? f) (aliased alias? g) := by
  cases alias? with
  | none => exact h
  | some name => exact (TiedAll.lead h _).spaced

theorem rounding (d : Dialect) (r : Rounding) (h : Tied dialect K ds f g) :
    Tied dialect K ds (r.apply d f) (r.apply d g) := by
  cases r with
  | ceil | floor | round => exact h.call _ _
  | digits n =>
      cases d with
      | postgresql => exact (h.cast _).call _ _
      | mysql | sqlite => exact h.call _ _

theorem jsonExtract (d : Dialect) (path : Fragment) (h : Tied dialect K ds f g) :
    Tied dialect K ds (d.jsonExtract f path) (d.jsonExtract g path) := by
  cases d with
  | postgresql => exact ((TiedAll.lead (h.cast _) _).operated _).parens
  | mysql | sqlite => exact h.call _ _

/-- A part of a JSON value, and whether it holds something. -/
theorem jsonOptions (d : Dialect) (options : JsonOptions) (h : Tied dialect K ds f g) :
    Tied dialect K ds (options.apply d f) (options.apply d g) := by
  obtain ⟨isArray, aggregate, extract, contains⟩ := options
  -- the test comes after the extraction, so it is settled for any fragment first
  have htested : ∀ {f g}, Tied dialect K ds f g →
      Tied dialect K ds (JsonOptions.apply d ⟨isArray, aggregate, none, contains⟩ f)
        (JsonOptions.apply d ⟨isArray, aggregate, none, contains⟩ g) := by
    intro f g h
    cases contains with
    | none => exact h
    | some candidate =>
        cases d with
        | mysql => exact h.call _ _
        | postgresql => exact (TiedAll.lead (h.cast _) _).operated _
        | sqlite => exact (h.before _).before _
  cases extract with
  | none => exact htested h
  | some path => exact htested (h.jsonExtract d _)

theorem collect (d : Dialect) (options : JsonOptions) (h : Tied dialect K ds f g) :
    Tied dialect K ds (options.collect d f) (options.collect d g) :=
  .ite (h.call _ _) h

/-- A unit that the dialect lacks is an error, on both sides. -/
theorem shiftBy (d : Dialect) (shift : Shift) (step : Interval.Step) (h : Tied dialect K ds f g) :
    Tied dialect K ds (shiftBy d shift f step) (shiftBy d shift g step) := by
  cases d with
  | mysql => exact h.call _ _
  | postgresql => exact (TiedAll.lead h _).spaced.parens
  | sqlite =>
      simp only [QueryTree.shiftBy]
      split
      · exact h.call _ _
      · exact h.before _

theorem foldl_shiftBy (d : Dialect) (shift : Shift) (steps : List Interval.Step)
    (h : Tied dialect K ds f g) :
    Tied dialect K ds (steps.foldl (QueryTree.shiftBy d shift) f)
      (steps.foldl (QueryTree.shiftBy d shift) g) := by
  induction steps generalizing f g with
  | nil => exact h
  | cons step steps ih => exact ih (h.shiftBy d shift step)

theorem parseDate (d : Dialect) (pattern : String) (h : Tied dialect K ds f g) :
    Tied dialect K ds (parseDate d f pattern) (parseDate d g pattern) := by
  unfold QueryTree.parseDate
  split
  · exact h.before _
  · cases d with
    | mysql | postgresql => exact h.call _ _
    | sqlite => exact h.before _

theorem formatDate (d : Dialect) (pattern : String) (h : Tied dialect K ds f g) :
    Tied dialect K ds (formatDate d f pattern) (formatDate d g pattern) := by
  unfold QueryTree.formatDate
  split
  · exact h.before _
  · cases d with
    | mysql | postgresql => exact h.call _ _
    | sqlite => exact ((h.after _).led _).parens.after _

/-- **The steps of a date keep a tie.** -/
theorem dateChange (d : Dialect) (change : DateChange) (h : Tied dialect K ds f g) :
    Tied dialect K ds (change.apply d f) (change.apply d g) := by
  have hparsed : Tied dialect K ds (change.fromPattern.elim f (QueryTree.parseDate d f))
      (change.fromPattern.elim g (QueryTree.parseDate d g)) := by
    cases change.fromPattern with
    | none => exact h
    | some pattern => exact h.parseDate d pattern
  have hmoved := (hparsed.foldl_shiftBy d .add change.add).foldl_shiftBy d .sub change.sub
  unfold DateChange.apply
  cases change.format with
  | none => exact hmoved
  | some pattern => exact hmoved.formatDate d pattern

end Fragment.Tied

namespace Fragment.TiedOption

theorem refl (parent : Option Fragment) : TiedOption dialect K [] parent parent := by
  cases parent with
  | none => exact .none
  | some f => exact .some (.same f)

variable {parent parent' : Option Fragment} {f f' g g' : Fragment}

/-- Without a column there is an error in its place, on both sides. -/
theorem leftOperand (h : TiedOption dialect K ds parent parent') (comparison : String) :
    Tied dialect K ds (leftOperand parent comparison) (leftOperand parent' comparison) := by
  cases h with
  | none => exact .fail _ _
  | some h => exact h

theorem betweenFragment {es' : List α} (h : TiedOption dialect K ds parent parent')
    (hf : Tied dialect K es f f') (hg : Tied dialect K es' g g') :
    Tied dialect K (ds ++ (es ++ es')) (betweenFragment parent f g)
      (betweenFragment parent' f' g') :=
  (TiedAll.cons (h.leftOperand _) (.skip _ (.cons hf (.skip _ (.last hg))))).spaced

/-- What has comparisons of its own is not about anything else. -/
theorem wrapperEntry (h : TiedOption dialect K ds parent parent') (compared : Bool)
    (hf : Tied dialect K es f g) :
    Tied dialect K ((if compared then [] else ds) ++ es) (wrapperEntry parent compared f)
      (wrapperEntry parent' compared g) := by
  cases h with
  | none => simpa [QueryTree.wrapperEntry] using hf
  | some hleft =>
      cases compared with
      | true => exact hf
      | false => exact hleft.crossed (hf.after _)

end Fragment.TiedOption

/-! ## Ciphers -/

/-- Two keys are written alike: the block mode, the vector and the size of the digest are written in
one dialect only, and another one has no ciphers. -/
def Cipher.Key.AlikeIn : Dialect → Key → Key → Prop
  | .mysql, key, key' => key = key'
  | .postgresql, key, key' => key.secret = key'.secret ∧ key.mode.size = key'.mode.size
  | .sqlite, _, _ => True

instance (dialect : Dialect) (key key' : Key) : Decidable (key.AlikeIn dialect key') :=
  match dialect with
  | .mysql => inferInstanceAs (Decidable (key = key'))
  | .postgresql =>
    inferInstanceAs (Decidable (key.secret = key'.secret ∧ key.mode.size = key'.mode.size))
  | .sqlite => inferInstanceAs (Decidable True)

/-- Two keys that are written alike, or one error in place of both. -/
def Cipher.Alike (dialect : Dialect) : Except CompileError Key → Except CompileError Key → Prop
  | .ok key, .ok key' => key.AlikeIn dialect key'
  | .error e, .error e' => e = e'
  | .ok _, .error _ | .error _, .ok _ => False

instance (dialect : Dialect) (key key' : Except CompileError Key) :
    Decidable (Cipher.Alike dialect key key') :=
  match key, key' with
  | .ok key, .ok key' => inferInstanceAs (Decidable (key.AlikeIn dialect key'))
  | .error e, .error e' => inferInstanceAs (Decidable (e = e'))
  | .ok _, .error _ | .error _, .ok _ => inferInstanceAs (Decidable False)

theorem Cipher.alike_refl (dialect : Dialect) (key : Except CompileError Key) :
    Cipher.Alike dialect key key := by
  cases key with
  | error e => rfl
  | ok key =>
      cases dialect with
      | mysql => rfl
      | postgresql => exact ⟨rfl, rfl⟩
      | sqlite => trivial

/-- Passes an expression through a cipher if there is a key. -/
def Cipher.passed (dialect : Dialect) (direction : Direction) (key : Except CompileError Key)
    (f : Fragment) : Fragment :=
  match key with
  | .ok key => key.apply dialect direction f
  | .error e => f ++ .fail e

theorem Scope.cipher_eq (scope : Scope) (direction : Direction) (column : Cipher.Settings)
    (f : Fragment) : scope.cipher direction column f
      = Cipher.passed scope.dialect direction (scope.resolve (some column)) f := by
  unfold Scope.cipher Cipher.passed
  rfl

/-- The vector is there if blocks are chained, and the digest has a known size. -/
def Cipher.Key.Complete (key : Key) : Prop :=
  key.vector.isSome = key.mode.chained ∧ key.digest ∈ Cipher.digestSizes

/-- The sizes of digests are told apart by their numerals. -/
theorem digest_inj {m n : Nat} (hm : m ∈ Cipher.digestSizes) (hn : n ∈ Cipher.digestSizes)
    (h : Decimal.natText m = Decimal.natText n) : m = n := by
  have hall : ∀ m ∈ Cipher.digestSizes, ∀ n ∈ Cipher.digestSizes,
      Decimal.natText m = Decimal.natText n → m = n := by decide
  exact hall m hm n hn h

/-- What follows the operand of a cipher that is called under a block mode. -/
def Cipher.Key.material (key : Key) : Fragment :=
  commas (hashedSecret key :: key.vector.toList.map Fragment.secret)

theorem Cipher.Key.imprint_material (key : Key) :
    key.material.imprint .mysql
      = ⟨[.word "UNHEX", .opening, .word "SHA2", .opening, .slot 0, .comma, .space,
          .word (Decimal.natText key.digest), .closing, .closing]
          ++ if key.vector.isSome then [.comma, .space, .slot 0] else [],
        .text key.secret :: key.vector.toList.map .text⟩ := by
  obtain ⟨mode, secret, vector, digest⟩ := key
  cases vector <;> rfl

/-- The block mode of a key is asked for wherever the key is written. -/
theorem Cipher.Key.mode_of_passes {key : Key} {m : Cipher.Mode} (h : key.material.Passes m) :
    key.mode = m := by
  have hmem : Hurdle.mode key.mode ∈ key.material.hurdles := by
    simp [material, commas, hashedSecret, Fragment.hurdles]
  exact Hurdle.mode.inj (h _ hmem)

namespace Fragment.Tied

variable {f g : Fragment} {d : α}

/-- **All of a key is told by what follows the operand**: the mode by what binding it asks for, the
rest by what is written and bound. -/
theorem material {key key' : Key} (hkey : key.Complete) (hkey' : key'.Complete)
    (hK : K d ↔ key = key') : Tied .mysql K [d] key.material key'.material := by
  have hvector : ∀ {m : Cipher.Mode}, key.material.Passes m → key'.material.Passes m →
      key.vector.isSome = key'.vector.isSome := by
    intro m h h'
    rw [hkey.1, hkey'.1, Key.mode_of_passes h, Key.mode_of_passes h']
  constructor
  · intro hall
    rw [hK.1 (hall d (by simp))]
  · intro m h h'
    rw [key.imprint_material, key'.imprint_material, hvector h h']
    exact ⟨by simp, by simp [Option.length_toList, hvector h h']⟩
  · intro m h h' heq
    rw [key.imprint_material, key'.imprint_material, hvector h h'] at heq
    simp only [Imprint.mk.injEq, List.append_cancel_right_eq, List.cons.injEq, Lexeme.word.injEq,
      Value.text.injEq, true_and, and_true] at heq
    obtain ⟨hdigest, hsecret, hvectors⟩ := heq
    have hmode : key.mode = key'.mode := (Key.mode_of_passes h).trans (Key.mode_of_passes h').symm
    have hsame : key.vector = key'.vector := by
      revert hvectors
      cases key.vector <;> cases key'.vector <;> simp
    have hsize : key.digest = key'.digest := digest_inj hkey.2 hkey'.2 hdigest
    rw [List.forall_mem_singleton, hK]
    cases key
    cases key'
    simp_all

/-- What follows the operand where the cipher is named in the text. -/
theorem named {key key' : Key}
    (hK : K d ↔ key.secret = key'.secret ∧ key.mode.size = key'.mode.size) :
    Tied .postgresql K [d]
      (commas [.secret key.secret, literal ("cipher-algo=" ++ key.mode.cipher)])
      (commas [.secret key'.secret, literal ("cipher-algo=" ++ key'.mode.cipher)]) := by
  have hsize : ∀ size size' : Cipher.KeySize,
      "cipher-algo=" ++ ("aes" ++ size.text) = "cipher-algo=" ++ ("aes" ++ size'.text) →
        size = size' := by
    intro size size'
    cases size <;> cases size' <;> decide
  constructor
  · intro hall
    obtain ⟨hsecret, hmode⟩ := hK.1 (hall d (by simp))
    rw [hsecret, Cipher.Mode.cipher, Cipher.Mode.cipher, hmode]
  · exact fun _ _ => ⟨rfl, rfl⟩
  · intro m _ _ heq
    rw [List.forall_mem_singleton, hK]
    have heq : (⟨[.slot 0, .comma, .space, .literal ("cipher-algo=" ++ key.mode.cipher)],
          [.text key.secret]⟩ : Imprint)
        = ⟨[.slot 0, .comma, .space, .literal ("cipher-algo=" ++ key'.mode.cipher)],
          [.text key'.secret]⟩ := heq
    simp only [Imprint.mk.injEq, List.cons.injEq, Lexeme.literal.injEq, Value.text.injEq,
      true_and, and_true] at heq
    exact ⟨heq.2, hsize _ _ heq.1⟩

/-- Errors of two keys. -/
theorem failed {e e' : CompileError} (hK : K d ↔ e = e') :
    Tied dialect K [d] (.fail e) (.fail e') where
  eq hall := by rw [hK.1 (hall d (by simp))]
  level hf _ := absurd hf (not_passes_fail e _)
  alike hf _ := absurd hf (not_passes_fail e _)

/-- A cipher with two keys of one dialect. -/
theorem keyApply {key key' : Key} (hkey : key.Complete) (hkey' : key'.Complete)
    (hK : K d ↔ key.AlikeIn dialect key') (direction : Direction) (h : Tied dialect K ds f g) :
    Tied dialect K (ds ++ [d]) (key.apply dialect direction f)
      (key'.apply dialect direction g) := by
  cases dialect with
  | mysql =>
      have harguments := ((h.before (tokens [.comma, .space])).append
        (material hkey hkey' hK)).parens
      cases direction <;> exact harguments.after _
  | postgresql =>
      have harguments : ∀ type, Tied .postgresql K (ds ++ [d]) _ _ := fun type =>
        (((h.cast [type]).before (tokens [.comma, .space])).append (named hK)).parens
      cases direction <;> exact (harguments _).after _
  | sqlite => exact h.halted _ [d]

/-- **Tied fragments that are passed through a cipher with two keys are tied by the keys too.** -/
theorem cipher {k k' : Except CompileError Key} (hk : ∀ key, k = .ok key → key.Complete)
    (hk' : ∀ key, k' = .ok key → key.Complete) (hK : K d ↔ Cipher.Alike dialect k k')
    (direction : Direction) (h : Tied dialect K ds f g) :
    Tied dialect K (ds ++ [d]) (Cipher.passed dialect direction k f)
      (Cipher.passed dialect direction k' g) := by
  have hnever : ∀ {f : Fragment} {e : CompileError} {m : Cipher.Mode},
      ¬ (f ++ .fail e : Fragment).Passes m :=
    fun h => not_passes_fail _ _ (passes_append.1 h).2
  cases k with
  | error e =>
      cases k' with
      | error e' => exact h.append (failed hK)
      | ok key' =>
          exact ⟨fun hall => (hK.1 (hall d (by simp))).elim, fun hf _ => absurd hf hnever,
            fun hf _ => absurd hf hnever⟩
  | ok key =>
      cases k' with
      | error e' =>
          exact ⟨fun hall => (hK.1 (hall d (by simp))).elim, fun _ hg => absurd hg hnever,
            fun _ hg => absurd hg hnever⟩
      | ok key' => exact h.keyApply (hk key rfl) (hk' key' rfl) hK direction

end Fragment.Tied

/-! ## Texts and bindings -/

/-- The lexeme that a unit is read from, without its number. -/
def Atom.lexeme : Atom → Lexeme
  | .blank => .space
  | .comma => .comma
  | .opening => .opening
  | .closing => .closing
  | .bare w | .head w => .word w
  | .literal s => .literal s
  | .name parts => .name parts
  | .question | .numbered _ => .slot 0
  | .doubleQuestion => .nameSlot

/-- A text tells the lexemes that it was written from, except for the numbers of placeholders. -/
theorem map_lexeme_atomsOf (dialect : Dialect) (ts : List Lexeme) :
    (atomsOf dialect ts).map Atom.lexeme = ts.map Lexeme.unnumbered := by
  induction ts with
  | nil => rfl
  | cons t ts ih =>
      have hatom : (t.atom dialect ts.head?).lexeme = t.unnumbered := by
        cases t with
        | word w =>
            simp only [Lexeme.atom]
            split <;> rfl
        | slot index =>
            simp only [Lexeme.atom]
            split <;> rfl
        | _ => rfl
      rw [atomsOf, List.map_cons, hatom, ih, List.map_cons]

/-- Two fragments compile to the same, errors included, if a condition holds, and to one text with
the same bindings only if it does. -/
structure Fragment.SameExactlyIf (dialect : Dialect) (f g : Fragment) (P : Prop) : Prop where
  same : P → ∀ b : Bindings, f.sql dialect b = g.sql dialect b
  onlyIf {b b' : Bindings} {text : String} : f.sql dialect b = (.ok text, b') →
    g.sql dialect b = (.ok text, b') → P

/-- **Tied fragments compile to the same exactly if the keys are alike.** -/
theorem Fragment.Tied.sameExactlyIf {f g : Fragment} (h : Tied dialect K ds f g)
    (hf : Phrase dialect f) (hg : Phrase dialect g) :
    g.SameExactlyIf dialect f (∀ d ∈ ds, K d) := by
  constructor
  · intro hall b
    rw [h.eq hall]
  · intro b b' text hsql hsql'
    obtain ⟨us, hrun, htext⟩ := sql_ok.1 hsql
    obtain ⟨ts, hrun', htext'⟩ := sql_ok.1 hsql'
    have hus : Tidy dialect us := hg.tidy hrun
    have hts : Tidy dialect ts := hf.tidy hrun'
    -- one text is read as one list of units
    have hatoms : atomsOf dialect ts = atomsOf dialect us := by
      have hread := atoms?_render hts
      rw [← htext', htext, atoms?_render hus] at hread
      exact (Option.some.inj hread).symm
    obtain ⟨mode, hpass, rfl, rfl⟩ := run_ok_iff.1 hrun
    obtain ⟨mode', hpass', rfl, hb⟩ := run_ok_iff.1 hrun'
    simp only [extend, Bindings.mk.injEq, List.append_cancel_left_eq] at hb
    obtain ⟨-, hvalues, rfl⟩ := hb
    obtain ⟨m, hm⟩ : ∃ m, ∀ k ∈ mode, k = m := by
      cases mode with
      | none => exact ⟨default, by simp⟩
      | some m => exact ⟨m, by simp⟩
    refine h.alike (passes_of_passAll hpass' hm) (passes_of_passAll hpass hm) ?_
    have hlexemes : (f.imprint dialect).lexemes = (g.imprint dialect).lexemes := by
      rw [← f.map_unnumbered_lexemes b.index, ← g.map_unnumbered_lexemes b.index,
        ← map_lexeme_atomsOf dialect, hatoms, map_lexeme_atomsOf]
    exact congrArg₂ Imprint.mk hlexemes hvalues.symm

end

end QueryTree
