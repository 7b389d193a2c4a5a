import QueryTree.Proofs.Emission.Tree
import QueryTree.Proofs.Nesting.Face

/-!
# What steps and texts show from outside

The face of a fragment that may halt, and what each step of an expression does to it: a step that
does anything at all encloses what it is applied to.

* `Fragment.Shows`, `Fragment.Avoids`: what a fragment shows, and does not show, unless it halts.
* `Fragment.mem_surface_join`, `Fragment.avoids_join`: fragments put together.
* `Covers`: a step that leaves a fragment as it is or encloses it.
* `covers_preparation`, `covers_stringFragment`, `covers_numberFragment`, `covers_dateChange`:
  the steps.
* `shows_column`, `shows_value`: texts of callers.
-/

namespace QueryTree

open Fragment (word tokens join spaced commas operated words parens call)

/-! ## Faces of fragments that may halt -/

namespace Fragment

/-- Unless the fragment halts, it has the face. -/
def Shows (face : Face) (f : Fragment) : Prop :=
  f.halts = false → f.face = face

/-- Unless the fragment halts, none of the words stands at depth zero. -/
def Avoids (ws : List String) (f : Fragment) : Prop :=
  f.halts = false → ∀ w ∈ f.surface, w ∉ ws

/-- Unless the fragment halts, no clause begins at depth zero. -/
abbrev Inline (f : Fragment) : Prop :=
  Avoids clauseWords f

theorem Shows.fail (face : Face) (e : CompileError) : Shows face (.fail e) := by
  simp [Shows, halts]

theorem Shows.halted (face : Face) (f : Fragment) (e : CompileError) :
    Shows face (f ++ .fail e) := by
  intro h
  change (f.halts || true) = false at h
  simp at h

theorem Shows.inline {face : Face} {f : Fragment} (h : Shows face f) (hface : face ≠ .clausal) :
    Inline f := by
  intro hf w hw hclause
  rw [← h hf] at hface
  exact hface ((face_eq_clausal f).2 ⟨w, hw, hclause⟩)

/-- A comparison or a connective at depth zero is all that it takes. -/
theorem Avoids.shows_exposed {f : Fragment} (h : Inline f)
    (hw : ∃ w ∈ f.surface, w ∈ relations) : Shows .exposed f := by
  intro hf
  refine (face_eq_exposed fun hclausal => ?_).2 hw
  obtain ⟨w, hw, hclause⟩ := (face_eq_clausal f).1 hclausal
  exact h hf w hw hclause

theorem Shows.avoids_relations {f : Fragment} (h : Shows .closed f) : Avoids relations f := by
  intro hf w hw hrelation
  have hface := h hf
  have hexposed := (face_eq_exposed (f := f) (by simp [hface])).2 ⟨w, hw, hrelation⟩
  simp [hface] at hexposed

/-! ### Words at depth zero -/

@[simp] theorem surface_append (f g : Fragment) : (f ++ g).surface = f.surface ++ g.surface := rfl

@[simp] theorem surface_word (w : String) : (word w).surface = [w] := rfl

@[simp] theorem surface_parens (body : Fragment) : (parens body).surface = [] := rfl

theorem surface_tokens (ts : List Lexeme) : (tokens ts).surface = ts.filterMap Lexeme.word? := by
  induction ts with
  | nil => rfl
  | cons t ts ih =>
      rw [tokens, surface, surface, ih, List.filterMap_cons]
      cases t.word? <;> rfl

theorem mem_surface_join {separator : List Lexeme} {fs : List Fragment} {w : String}
    (h : w ∈ (join separator fs).surface) :
    w ∈ separator.filterMap Lexeme.word? ∨ ∃ f ∈ fs, w ∈ f.surface := by
  induction fs with
  | nil => simp [join, surface] at h
  | cons f fs ih =>
      cases fs with
      | nil => exact .inr ⟨f, by simp, h⟩
      | cons g fs =>
          simp only [join, surface_append, surface_tokens, List.mem_append] at h
          rcases h with (hf | hs) | hrest
          · exact .inr ⟨f, by simp, hf⟩
          · exact .inl hs
          · obtain hs | ⟨k, hk, hw⟩ := ih hrest
            · exact .inl hs
            · exact .inr ⟨k, by simp [hk], hw⟩

@[simp] theorem surface_spaced (fs : List Fragment) :
    (spaced fs).surface = fs.flatMap surface := by
  induction fs with
  | nil => rfl
  | cons f fs ih =>
      cases fs with
      | nil => simp [spaced, join]
      | cons g fs =>
          rw [List.flatMap_cons, ← ih]
          simp [spaced, join, surface_tokens, Lexeme.word?]

@[simp] theorem surface_words (ws : List String) : (words ws).surface = ws := by
  induction ws with
  | nil => rfl
  | cons w ws ih => simpa [words] using ih

/-! ### Putting fragments together -/

theorem halts_tokens (ts : List Lexeme) : (tokens ts).halts = false := by
  induction ts with
  | nil => rfl
  | cons t ts ih => simpa [tokens, halts] using ih

/-- Fragments that are put together halt if one of them does. -/
theorem halts_join (separator : List Lexeme) (fs : List Fragment) :
    (join separator fs).halts = fs.any halts := by
  induction fs with
  | nil => rfl
  | cons f fs ih =>
      cases fs with
      | nil => simp [join]
      | cons g fs =>
          change ((f.halts || (tokens separator).halts) || (join separator (g :: fs)).halts) = _
          rw [halts_tokens, ih]
          simp

section Avoids

variable {ws : List String}

theorem Avoids.mono {vs : List String} {f : Fragment} (h : Avoids ws f)
    (hvs : ∀ w ∈ vs, w ∈ ws) : Avoids vs f :=
  fun hf w hw hv => h hf w hw (hvs w hv)

theorem Avoids.append {f g : Fragment} (hf : Avoids ws f) (hg : Avoids ws g) :
    Avoids ws (f ++ g) := by
  intro h w hw
  obtain ⟨hhf, hhg⟩ := Bool.or_eq_false_iff.1 h
  rw [surface_append, List.mem_append] at hw
  exact hw.elim (hf hhf w) (hg hhg w)

theorem Avoids.crossed {f g : Fragment} (hf : Avoids ws f) (hg : Avoids ws g) :
    Avoids ws (.crossed f g) :=
  hf.append hg

theorem avoids_tokens {ts : List Lexeme} (h : ∀ w ∈ ts.filterMap Lexeme.word?, w ∉ ws) :
    Avoids ws (tokens ts) := by
  intro _ w hw
  rw [surface_tokens] at hw
  exact h w hw

theorem avoids_join {separator : List Lexeme}
    (hs : ∀ w ∈ separator.filterMap Lexeme.word?, w ∉ ws) {fs : List Fragment}
    (h : ∀ f ∈ fs, Avoids ws f) : Avoids ws (join separator fs) := by
  intro hf w hw
  rw [halts_join, List.any_eq_false] at hf
  obtain hw | ⟨f, hmem, hw⟩ := mem_surface_join hw
  · exact hs w hw
  · exact h f hmem (by simpa using hf f hmem) w hw

theorem avoids_spaced {fs : List Fragment} (h : ∀ f ∈ fs, Avoids ws f) : Avoids ws (spaced fs) :=
  avoids_join (by simp [Lexeme.word?]) h

theorem avoids_commas {fs : List Fragment} (h : ∀ f ∈ fs, Avoids ws f) : Avoids ws (commas fs) :=
  avoids_join (by simp [Lexeme.word?]) h

theorem avoids_operated {operator : String} (ho : operator ∉ ws) {fs : List Fragment}
    (h : ∀ f ∈ fs, Avoids ws f) : Avoids ws (operated operator fs) :=
  avoids_join (by simpa [Lexeme.word?] using ho) h

theorem avoids_word {w : String} (h : w ∉ ws) : Avoids ws (word w) := by
  intro _ v hv
  rw [surface_word, List.mem_singleton] at hv
  rwa [hv]

theorem avoids_words {vs : List String} (h : ∀ w ∈ vs, w ∉ ws) : Avoids ws (words vs) := by
  intro _ w hw
  rw [surface_words] at hw
  exact h w hw

theorem avoids_parens (body : Fragment) : Avoids ws (parens body) := by
  intro _ w hw
  simp at hw

end Avoids

end Fragment

open Fragment (Shows Avoids Inline)

variable {dialect : Dialect}

/-- Functions show nothing. -/
theorem wordFace_function {w : String} (h : w ∈ dialect.functions) : wordFace w = .closed := by
  have hall : ∀ w ∈ dialect.functions, wordFace w = .closed := by cases dialect <;> decide +kernel
  exact hall w h

theorem face_applied {function : String} (h : wordFace function = .closed) (body : Fragment) :
    (word function ++ parens body).face = .closed := by
  change (wordFace function).join .closed = .closed
  rw [h]
  rfl

theorem face_commonCall {function : String} (h : function ∈ commonFunctions)
    (arguments : List Fragment) : (call function arguments).face = .closed :=
  face_applied (wordFace_function (Dialect.sqlite.mem_functions_of_common h)) _

theorem face_ownCall {function : String} (h : function ∈ dialect.ownFunctions)
    (arguments : List Fragment) : (call function arguments).face = .closed :=
  face_applied (wordFace_function (List.mem_append_right _ h)) _

theorem face_cast (f : Fragment) (type : List String) : (f.cast type).face = .closed := by
  have hcast : "CAST" ∈ commonFunctions := by simp [commonFunctions]
  exact face_applied (wordFace_function (Dialect.sqlite.mem_functions_of_common hcast)) _

/-! ## Steps of an expression -/

/-- If nothing is asked for, `g` is `f`; else it shows nothing of `f`, unless it halts. -/
def Covers (idle : Bool) (f g : Fragment) : Prop :=
  g.halts = false → if idle then g = f else g.face = .closed

namespace Covers

theorem refl (f : Fragment) : Covers true f f :=
  fun _ => rfl

theorem of_closed {f g : Fragment} (h : g.face = .closed) : Covers false f g :=
  fun _ => h

theorem halted (idle : Bool) (f g : Fragment) (e : CompileError) :
    Covers idle f (g ++ .fail e) := by
  intro h
  change (g.halts || true) = false at h
  simp at h

theorem trans {i j : Bool} {f g k : Fragment} (hg : Covers i f g) (hk : Covers j g k) :
    Covers (i && j) f k := by
  intro h
  have hclosed := hk h
  cases j with
  | false => simpa using hclosed
  | true =>
      simp only [if_true] at hclosed
      subst hclosed
      simpa using hg h

/-- What a covered fragment shows. -/
theorem shows {idle : Bool} {f g : Fragment} {face : Face} (h : Covers idle f g)
    (hf : Shows face f) : Shows (if idle then face else .closed) g := by
  intro hg
  have hcovers := h hg
  cases idle with
  | false => exact hcovers
  | true =>
      simp only [if_true] at hcovers
      subst hcovers
      exact hf hg

end Covers

/-- Whether the value of a wrapper is taken as it is. -/
def Preparation.isIdle (prepare : Preparation) : Bool :=
  prepare.decrypt.isNone && prepare.cast.isNone

/-- Whether a step does nothing. -/
def StringStep.isIdle : StringStep → Bool
  | .padding none none => true
  | _ => false

/-- Whether a date is taken as it is. -/
def DateChange.isIdle (change : DateChange) : Bool :=
  change.fromPattern.isNone && change.add.isEmpty && change.sub.isEmpty && change.format.isNone

theorem covers_castOptional (f : Fragment) (type : Option CastType) :
    Covers type.isNone f (dialect.castOptional f type) := by
  cases type with
  | none => exact .refl f
  | some type =>
      simp only [Dialect.castOptional, Dialect.castTo]
      split
      · exact .of_closed (face_cast f _)
      · exact .halted _ f f _

theorem covers_keyApply (key : Cipher.Key) (direction : Direction) (f : Fragment) :
    Covers false f (key.apply dialect direction f) := by
  cases dialect with
  | mysql =>
      have hencrypt : "AES_ENCRYPT" ∈ Dialect.mysql.ownFunctions := by decide
      have hdecrypt : "AES_DECRYPT" ∈ Dialect.mysql.ownFunctions := by decide
      cases direction with
      | encrypt => exact .of_closed (face_ownCall hencrypt _)
      | decrypt => exact .of_closed (face_ownCall hdecrypt _)
  | postgresql =>
      have hencrypt : "pgp_sym_encrypt" ∈ Dialect.postgresql.ownFunctions := by decide
      have hdecrypt : "pgp_sym_decrypt" ∈ Dialect.postgresql.ownFunctions := by decide
      cases direction with
      | encrypt => exact .of_closed (face_ownCall hencrypt _)
      | decrypt => exact .of_closed (face_ownCall hdecrypt _)
  | sqlite => exact .halted _ f f _

theorem covers_cipher (scope : Scope) (direction : Direction) (column : Cipher.Settings)
    (f : Fragment) : Covers false f (scope.cipher direction column f) := by
  unfold Scope.cipher
  split
  · exact covers_keyApply _ direction f
  · exact .halted _ f f _

theorem covers_preparation (scope : Scope) (prepare : Preparation) (f : Fragment) :
    Covers prepare.isIdle f (prepare.apply scope f) := by
  refine .trans ?_ (covers_castOptional _ prepare.cast)
  cases prepare.decrypt with
  | none => exact .refl f
  | some column => exact covers_cipher scope .decrypt column f

theorem covers_padFragment (scope : Scope) {function : String}
    (h : function ∈ Dialect.mysql.ownFunctions) (f : Fragment) (pad : Option Pad) :
    Covers pad.isNone f (padFragment scope function f pad) := by
  match pad with
  | none => exact .refl f
  | some ⟨length, none⟩ => exact .of_closed (face_ownCall h _)
  | some ⟨length, some pattern⟩ => exact .of_closed (face_ownCall h _)

theorem isIdle_padding (left right : Option Pad) :
    (StringStep.padding left right).isIdle = (left.isNone && right.isNone) := by
  cases left <;> cases right <;> rfl

theorem covers_stringFragment (scope : Scope) (f : Fragment) (steps : List StringStep) :
    Covers (steps.all StringStep.isIdle) f (stringFragment scope f steps) := by
  induction steps generalizing f with
  | nil => exact .refl f
  | cons step rest ih =>
      cases step with
      | trim side =>
          refine .trans (.of_closed (face_commonCall ?_ _)) (ih _)
          cases side <;> simp [Side.function, commonFunctions]
      | substr start length =>
          cases length <;>
            exact .trans (.of_closed (face_ownCall substrFunction_mem_ownFunctions _)) (ih _)
      | padding left right =>
          simp only [stringFragment, List.all_cons, isIdle_padding]
          split
          · exact .halted _ f f _
          · exact .trans (.trans (covers_padFragment scope (by decide) f left)
              (covers_padFragment scope (by decide) _ right)) (ih _)
      | textCase case =>
          refine .trans (.of_closed (face_commonCall ?_ _)) (ih _)
          cases case <;> simp [TextCase.function, commonFunctions]
      | reverse =>
          simp only [stringFragment]
          split
          · exact .halted _ f f _
          · have hreverse : "REVERSE" ∈ Dialect.mysql.ownFunctions := by decide
            exact .trans (.of_closed (face_ownCall hreverse _)) (ih _)
      | replace target replacement =>
          exact .trans (.of_closed (face_commonCall (by simp [commonFunctions]) _)) (ih _)
      | encoding charset =>
          simp only [stringFragment]
          split
          · have hconvert : "CONVERT" ∈ Dialect.mysql.functions := by decide
            exact .trans (.of_closed (face_applied (wordFace_function hconvert) _)) (ih _)
          · exact .halted _ f f _

theorem covers_numberFragment (scope : Scope) (f : Fragment) (steps : List NumberStep) :
    Covers steps.isEmpty f (numberFragment scope f steps) := by
  induction steps generalizing f with
  | nil => exact .refl f
  | cons step rest ih =>
      cases step with
      | power exponent =>
          exact .trans (.of_closed (face_commonCall (by simp [commonFunctions]) _)) (ih _)
      | arithmetic operation operand => exact .trans (.of_closed rfl) (ih _)
      | rounding rounding =>
          refine .trans (.of_closed ?_) (ih _)
          cases rounding with
          | digits n =>
              simp only [Rounding.apply]
              split <;> exact face_commonCall (by simp [commonFunctions]) _
          | _ => exact face_commonCall (by simp [commonFunctions]) _

theorem covers_shiftBy (shift : Shift) (f : Fragment) (step : Interval.Step) :
    Covers false f (shiftBy dialect shift f step) := by
  cases dialect with
  | mysql =>
      have hadd : "DATE_ADD" ∈ Dialect.mysql.ownFunctions := by decide
      have hsub : "DATE_SUB" ∈ Dialect.mysql.ownFunctions := by decide
      cases shift with
      | add => exact .of_closed (face_ownCall hadd _)
      | sub => exact .of_closed (face_ownCall hsub _)
  | postgresql => exact .of_closed rfl
  | sqlite =>
      have hdatetime : "DATETIME" ∈ Dialect.sqlite.ownFunctions := by decide
      simp only [shiftBy]
      split
      · exact .of_closed (face_ownCall hdatetime _)
      · exact .halted _ f f _

theorem covers_foldl_shiftBy (shift : Shift) (f : Fragment) (steps : List Interval.Step) :
    Covers steps.isEmpty f (steps.foldl (shiftBy dialect shift) f) := by
  induction steps generalizing f with
  | nil => exact .refl f
  | cons step rest ih => exact .trans (covers_shiftBy shift f step) (ih _)

theorem covers_parseDate (f : Fragment) (pattern : String) :
    Covers false f (parseDate dialect f pattern) := by
  have hmysql : "STR_TO_DATE" ∈ Dialect.mysql.ownFunctions := by decide
  have hpostgresql : "TO_TIMESTAMP" ∈ Dialect.postgresql.ownFunctions := by decide
  unfold parseDate
  split
  · exact .halted _ f f _
  · cases dialect with
    | mysql => exact .of_closed (face_ownCall hmysql _)
    | postgresql => exact .of_closed (face_ownCall hpostgresql _)
    | sqlite => exact .halted _ f f _

theorem covers_formatDate (f : Fragment) (pattern : String) :
    Covers false f (formatDate dialect f pattern) := by
  have hmysql : "DATE_FORMAT" ∈ Dialect.mysql.ownFunctions := by decide
  have hpostgresql : "TO_CHAR" ∈ Dialect.postgresql.ownFunctions := by decide
  have hsqlite : "STRFTIME" ∈ Dialect.sqlite.functions := by decide
  unfold formatDate
  split
  · exact .halted _ f f _
  · cases dialect with
    | mysql => exact .of_closed (face_ownCall hmysql _)
    | postgresql => exact .of_closed (face_ownCall hpostgresql _)
    | sqlite => exact .of_closed (face_applied (wordFace_function hsqlite) _)

theorem covers_dateChange (change : DateChange) (f : Fragment) :
    Covers change.isIdle f (change.apply dialect f) := by
  have hparse : Covers change.fromPattern.isNone f
      (change.fromPattern.elim f (parseDate dialect f)) := by
    cases change.fromPattern with
    | none => exact .refl f
    | some pattern => exact covers_parseDate f pattern
  have hformat : ∀ g, Covers change.format.isNone g
      (change.format.elim g (formatDate dialect g)) := by
    intro g
    cases change.format with
    | none => exact .refl g
    | some pattern => exact covers_formatDate g pattern
  exact ((hparse.trans (covers_foldl_shiftBy .add _ change.add)).trans
    (covers_foldl_shiftBy .sub _ change.sub)).trans (hformat _)

/-! ## Texts of callers -/

theorem face_constant (constant : Token.Constant) :
    (constant.fragment dialect).face = .closed := by
  cases constant <;> cases dialect <;> decide +kernel

theorem shows_star (token : String) : Shows .closed (Token.star token) := by
  have hall : wordFace ".*" = .closed := by decide +kernel
  unfold Token.star
  split
  · exact fun _ => by decide +kernel
  · split
    · split
      · intro _
        change Face.closed.join (wordFace ".*") = .closed
        rw [hall]
        rfl
      · exact .fail _ _
    · exact .fail _ _

theorem face_null : (word "NULL").face = .closed := by
  decide +kernel

/-- A text in the place of a column shows nothing. -/
theorem shows_column (scope : Scope) (token : String) :
    Shows .closed (Token.column scope token) := by
  unfold Token.column
  split
  · exact fun _ => face_constant _
  · split
    · exact shows_star token
    · split
      · exact fun _ => face_null
      · split
        · exact fun _ => rfl
        · split
          · exact fun _ => rfl
          · exact fun _ => rfl

/-- A text in the place of a value shows nothing. -/
theorem shows_value (scope : Scope) (token : String) : Shows .closed (Token.value scope token) := by
  unfold Token.value
  split
  · exact fun _ => face_constant _
  · split
    · exact fun _ => face_null
    · split
      · exact fun _ => rfl
      · split
        · exact fun _ => rfl
        · exact fun _ => rfl

theorem shows_token (place : Place) (scope : Scope) (token : String) :
    Shows .closed (place.token scope token) := by
  cases place with
  | column => exact shows_column scope token
  | value => exact shows_value scope token

end QueryTree
