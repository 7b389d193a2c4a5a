import QueryTree.Proofs.Emission.Phrase
import QueryTree.Proofs.Nesting.Face
import QueryTree.Sql.Statement

/-!
# What stands around the parts of a fragment

A fragment is put together from others and from fixed lexemes around them. Much can be said of it
from the parts alone if what stands around them is harmless.

* `Fragment.Frames`, `FramesAll`: a fragment holds parts in the order of the text, with permitted
  fragments around them.
* `Fragment.isMild`: fragments that ask for nothing beside them.
* `Permit.Lenient`: what permits all mild fragments, and the character sets of a conversion.
* `Frames.cast`, `Frames.cipher`, `Frames.dateChange`, `Frames.jsonOptions`: the steps of an
  expression around what they are applied to.
* `Fragment.Holds`: the same with anything around the parts.
-/

namespace QueryTree

open Fragment (word literal tokens join spaced commas operated words parens call)

/-! ## Frames -/

/-- Which fragments may stand around parts, at depth zero or inside delimiters. -/
abbrev Permit := Bool → Fragment → Prop

/-- The fragment holds the parts, in the order of the text, and permitted fragments around them.
What ends in an error holds anything. -/
inductive Fragment.Frames (ok : Permit) : Bool → Fragment → List Fragment → Prop
  | leaf {inside : Bool} {f : Fragment} : ok inside f → Frames ok inside f []
  | part {inside : Bool} (f : Fragment) : Frames ok inside f [f]
  | fail {inside : Bool} (e : CompileError) (gs : List Fragment) : Frames ok inside (.fail e) gs
  | enclosed {inside : Bool} {f : Fragment} {gs : List Fragment} (delimiters : Delimiters) :
      Frames ok true f gs → Frames ok inside (.enclosed delimiters f) gs
  | append {inside : Bool} {f g : Fragment} {gs hs : List Fragment} :
      Frames ok inside f gs → Frames ok inside g hs → Frames ok inside (f ++ g) (gs ++ hs)
  | crossed {inside : Bool} {f g : Fragment} {gs hs : List Fragment} :
      Frames ok inside f gs → Frames ok inside g hs → Frames ok inside (.crossed f g) (gs ++ hs)
  | led {inside : Bool} {f : Fragment} {gs : List Fragment} (v : Value) :
      Frames ok inside f gs → Frames ok inside (.led v f) gs

open Fragment (Frames)

/-- The same for fragments, one after the other. -/
inductive FramesAll (ok : Permit) (inside : Bool) : List Fragment → List Fragment → Prop
  | nil : FramesAll ok inside [] []
  | cons {f : Fragment} {fs gs hs : List Fragment} :
      Frames ok inside f gs → FramesAll ok inside fs hs → FramesAll ok inside (f :: fs) (gs ++ hs)

variable {ok : Permit} {inside : Bool} {f g : Fragment} {fs gs hs : List Fragment}

namespace Fragment.Frames

theorem congr (h : Frames ok inside f gs) (heq : gs = hs) : Frames ok inside f hs :=
  heq ▸ h

/-- An error after a fragment. -/
theorem halted (h : Frames ok inside f gs) (e : CompileError) (hs : List Fragment) :
    Frames ok inside (f ++ .fail e) (gs ++ hs) :=
  h.append (.fail e hs)

/-- An error after a fragment that holds nothing more. -/
theorem stopped (h : Frames ok inside f gs) (e : CompileError) :
    Frames ok inside (f ++ .fail e) gs := by
  simpa using h.halted e []

theorem ite {c : Prop} [Decidable c] (hf : Frames ok inside f gs) (hg : Frames ok inside g gs) :
    Frames ok inside (if c then f else g) gs := by
  split
  · exact hf
  · exact hg

end Fragment.Frames

namespace FramesAll

/-- A fragment without parts in front. -/
theorem skip (hf : ok inside f) (h : FramesAll ok inside fs gs) :
    FramesAll ok inside (f :: fs) gs :=
  cons (.leaf hf) h

/-- A part in front. -/
theorem part (f : Fragment) (h : FramesAll ok inside fs gs) :
    FramesAll ok inside (f :: fs) (f :: gs) :=
  cons (.part f) h

theorem parts (fs : List Fragment) : FramesAll ok inside fs fs := by
  induction fs with
  | nil => exact .nil
  | cons f fs ih => exact ih.part f

theorem none (h : ∀ f ∈ fs, ok inside f) : FramesAll ok inside fs [] := by
  induction fs with
  | nil => exact .nil
  | cons f fs ih =>
      rw [List.forall_mem_cons] at h
      exact (ih h.2).skip h.1

/-- A fragment in front of others without parts. -/
theorem lead (hf : Frames ok inside f gs) (h : ∀ g ∈ fs, ok inside g) :
    FramesAll ok inside (f :: fs) gs := by
  simpa using cons hf (none h)

theorem append (h : FramesAll ok inside fs gs) {fs' gs' : List Fragment}
    (h' : FramesAll ok inside fs' gs') : FramesAll ok inside (fs ++ fs') (gs ++ gs') := by
  induction h with
  | nil => exact h'
  | cons hf _ ih =>
      rw [List.append_assoc]
      exact cons hf ih

theorem join {separator : List Lexeme} (hs : ok inside (tokens separator))
    (hempty : ok inside .empty) (h : FramesAll ok inside fs gs) :
    Frames ok inside (join separator fs) gs := by
  induction h with
  | nil => exact .leaf hempty
  | @cons f fs gs ks hf hfs ih =>
      cases fs with
      | nil =>
          cases hfs
          simpa [Fragment.join] using hf
      | cons g fs =>
          have hleft : Frames ok inside (f ++ tokens separator) (gs ++ []) := hf.append (.leaf hs)
          rw [List.append_nil] at hleft
          exact hleft.append ih

theorem intersperse {separator : Fragment} (hs : ok inside separator)
    (h : FramesAll ok inside fs gs) : FramesAll ok inside (fs.intersperse separator) gs := by
  induction h with
  | nil => exact .nil
  | @cons f fs gs ks hf hfs ih =>
      cases fs with
      | nil => exact cons hf hfs
      | cons g fs => exact cons hf (ih.skip hs)

end FramesAll

/-! ## Mild fragments -/

/-- Words that something has to follow, or that ask for something inside the parentheses after
them. -/
def pendingWords : List String :=
  ["WHERE", "HAVING", "ON", "SET", "WHEN", "AND", "OR", "BETWEEN", "IN", "USING", "CONCAT", "IF"]

/-- Words at which what stood before has come to its end: connectives, and words that begin a
clause. -/
def stopWords : List String :=
  ["AND", "OR", "LEFT", "RIGHT", "CROSS", "FULL"] ++ clauseWords

/-- Whether a word may stand anywhere. -/
def isMildWord (w : String) : Bool :=
  !pendingWords.contains w && !stopWords.contains w

/-- Whether a lexeme asks for nothing beside it. What ends other things belongs inside
delimiters. -/
def Lexeme.isMild (inside : Bool) : Lexeme → Bool
  | .comma => inside
  | .word w => !pendingWords.contains w && (inside || !stopWords.contains w)
  | _ => true

namespace Fragment

/-- Whether all fixed lexemes of a fragment are mild. -/
def isMild (inside : Bool) : Fragment → Bool
  | .token t => t.isMild inside
  | .enclosed _ body => body.isMild true
  | .append first second | .crossed first second => first.isMild inside && second.isMild inside
  | .led _ body => body.isMild inside
  | .empty | .value _ | .secret _ | .path _ | .outputName _ | .mode _ | .fail _ => true

theorem isMild_word {w : String} (h : isMildWord w = true) : (word w).isMild inside = true := by
  obtain ⟨hpending, hstop⟩ := Bool.and_eq_true_iff.1 h
  simp only [word, isMild, Lexeme.isMild, hpending, hstop, Bool.or_true, Bool.and_self]

theorem isMild_tokens {ts : List Lexeme} (h : ∀ t ∈ ts, t.isMild inside = true) :
    (tokens ts).isMild inside = true := by
  induction ts with
  | nil => rfl
  | cons t ts ih =>
      rw [List.forall_mem_cons] at h
      exact Bool.and_eq_true_iff.2 ⟨h.1, ih h.2⟩

theorem isMild_join {separator : List Lexeme} (hs : ∀ t ∈ separator, t.isMild inside = true)
    {fs : List Fragment} (h : ∀ f ∈ fs, f.isMild inside = true) :
    (join separator fs).isMild inside = true := by
  induction fs with
  | nil => rfl
  | cons f fs ih =>
      rw [List.forall_mem_cons] at h
      cases fs with
      | nil => exact h.1
      | cons g fs =>
          have hleft : (f ++ tokens separator).isMild inside = true :=
            Bool.and_eq_true_iff.2 ⟨h.1, isMild_tokens hs⟩
          exact Bool.and_eq_true_iff.2 ⟨hleft, ih h.2⟩

theorem isMild_spaced (h : ∀ f ∈ fs, f.isMild inside = true) : (spaced fs).isMild inside = true :=
  isMild_join (by simp [Lexeme.isMild]) h

theorem isMild_words {ws : List String} (h : ∀ w ∈ ws, isMildWord w = true) :
    (words ws).isMild inside = true := by
  refine isMild_spaced fun f hf => ?_
  obtain ⟨w, hw, rfl⟩ := List.mem_map.1 hf
  exact isMild_word (h w hw)

theorem isMild_call {function : String} (hw : isMildWord function = true)
    (h : ∀ f ∈ fs, f.isMild true = true) : (call function fs).isMild inside = true :=
  Bool.and_eq_true_iff.2 ⟨isMild_word hw, isMild_join (by simp [Lexeme.isMild]) h⟩

theorem isMild_cast {type : List String} (htype : ∀ w ∈ type, isMildWord w = true)
    (h : f.isMild true = true) : (f.cast type).isMild inside = true := by
  have has : (word "AS").isMild true = true := isMild_word (by decide)
  refine Bool.and_eq_true_iff.2 ⟨isMild_word (by decide), isMild_spaced ?_⟩
  simp [h, has, isMild_words htype]

end Fragment

/-! ### Texts of callers -/

open Fragment (isMild_word)

theorem isMild_null : (word "NULL").isMild inside = true :=
  isMild_word (by decide)

theorem isMild_constant (d : Dialect) (constant : Token.Constant) :
    (constant.fragment d).isMild inside = true := by
  cases inside <;> cases constant <;> cases d <;> decide

theorem isMild_star (token : String) : (Token.star token).isMild inside = true := by
  have hall : (word ".*").isMild inside = true := isMild_word (by decide)
  unfold Token.star
  split
  · exact isMild_word (by decide)
  · split
    · split
      · exact Bool.and_eq_true_iff.2 ⟨rfl, hall⟩
      · rfl
    · rfl

theorem isMild_column (scope : Scope) (token : String) :
    (Token.column scope token).isMild inside = true := by
  unfold Token.column
  split
  · exact isMild_constant _ _
  · split
    · exact isMild_star token
    · split
      · exact isMild_null
      · split
        · rfl
        · split <;> rfl

theorem isMild_value (scope : Scope) (token : String) :
    (Token.value scope token).isMild inside = true := by
  unfold Token.value
  split
  · exact isMild_constant _ _
  · split
    · exact isMild_null
    · split
      · rfl
      · split <;> rfl

theorem isMild_placed (place : Place) (scope : Scope) (token : String) :
    (place.token scope token).isMild inside = true := by
  cases place with
  | column => exact isMild_column scope token
  | value => exact isMild_value scope token

/-! ## Lenient permits -/

/-- Mild fragments are permitted, what is permitted at depth zero is permitted inside, and a
character set may be named. -/
class Permit.Lenient (ok : Permit) : Prop where
  permits : ∀ {inside : Bool} {f : Fragment}, f.isMild inside = true → ok inside f
  widens : ∀ {inside : Bool} {f : Fragment}, ok inside f → ok true f
  charset : ∀ charset : Charset, ok true (spaced ["USING", charset.name])

open Permit.Lenient (permits)

variable [Permit.Lenient ok]

theorem Permit.Lenient.mild {w : String} (h : isMildWord w = true) : ok inside (word w) :=
  permits (isMild_word h)

open Permit.Lenient (mild)

namespace FramesAll

theorem spaced (h : FramesAll ok inside fs gs) : Frames ok inside (spaced fs) gs :=
  h.join (permits rfl) (permits rfl)

theorem commas (h : FramesAll ok true fs gs) : Frames ok true (commas fs) gs :=
  h.join (permits rfl) (permits rfl)

theorem operated {operator : String} (ho : isMildWord operator = true)
    (h : FramesAll ok inside fs gs) : Frames ok inside (operated operator fs) gs := by
  have hoperator : (tokens [.space, .word operator, .space]).isMild inside = true :=
    Bool.and_eq_true_iff.2 ⟨rfl, Bool.and_eq_true_iff.2 ⟨isMild_word ho, rfl⟩⟩
  exact h.join (permits hoperator) (permits rfl)

theorem call {function : String} (hw : isMildWord function = true)
    (h : FramesAll ok true fs gs) : Frames ok inside (call function fs) gs :=
  .append (f := Fragment.word function) (.leaf (mild hw)) (.enclosed .parens h.commas)

end FramesAll

/-! ## Steps of an expression -/

namespace Fragment.Frames

theorem toInside (h : Frames ok inside f gs) : Frames ok true f gs := by
  induction h with
  | leaf h => exact .leaf (Permit.Lenient.widens h)
  | part f => exact .part f
  | fail e gs => exact .fail e gs
  | enclosed delimiters h _ => exact .enclosed delimiters h
  | append _ _ ihf ihg => exact .append ihf ihg
  | crossed _ _ ihf ihg => exact .crossed ihf ihg
  | led v _ ih => exact .led v ih

theorem parens (h : Frames ok inside f gs) : Frames ok inside (parens f) gs :=
  .enclosed .parens h.toInside

/-- A function with one argument that matters. -/
theorem call {function : String} (hw : isMildWord function = true) (h : Frames ok inside f gs)
    (hfs : ∀ g ∈ fs, g.isMild true = true) : Frames ok inside (call function (f :: fs)) gs :=
  (FramesAll.lead h.toInside fun g hg => permits (hfs g hg)).call hw

theorem cast (h : Frames ok inside f gs) {type : List String}
    (htype : ∀ w ∈ type, isMildWord w = true) : Frames ok inside (f.cast type) gs := by
  have hwords : ∀ g ∈ ([word "AS", words type] : List Fragment), ok true g := by
    have has : ok true (word "AS") := mild (by decide)
    simpa [has] using permits (isMild_words htype)
  exact .append (f := word "CAST") (.leaf (mild (by decide)))
    (.enclosed .parens (FramesAll.lead h.toInside hwords).spaced)

theorem castOptional (d : Dialect) (h : Frames ok inside f gs) (type : Option CastType) :
    Frames ok inside (d.castOptional f type) gs := by
  have hwords : ∀ type words, d.typeWords type = some words → ∀ w ∈ words, isMildWord w = true := by
    cases d <;> intro type <;> cases type <;> decide
  cases type with
  | none => exact h
  | some type =>
      simp only [Dialect.castOptional, Dialect.castTo]
      split
      · next words hw => exact h.cast (hwords type words hw)
      · exact h.stopped _

theorem textOperand (d : Dialect) (h : Frames ok inside f gs) :
    Frames ok inside (d.textOperand f) gs := by
  cases d with
  | postgresql => exact h.cast (by decide)
  | mysql => exact h
  | sqlite => exact h

theorem keyApply {key : Cipher.Key} (hk : key.digest ∈ Cipher.digestSizes) (d : Dialect)
    (direction : Direction) (h : Frames ok inside f gs) :
    Frames ok inside (key.apply d direction f) gs := by
  cases d with
  | mysql =>
      have hdigest : isMildWord (Decimal.natText key.digest) = true := by
        simp only [Cipher.digestSizes, List.mem_cons, List.not_mem_nil, or_false] at hk
        rcases hk with hk | hk | hk | hk <;> rw [hk] <;> decide
      have hsha : (Fragment.call "SHA2"
          [.secret key.secret, word (Decimal.natText key.digest)]).isMild true = true :=
        isMild_call (by decide) (by simp [isMild, isMild_word hdigest])
      have hsecret : (hashedSecret key).isMild true = true :=
        Bool.and_eq_true_iff.2
          ⟨rfl, isMild_call (by decide) (List.forall_mem_singleton.2 hsha)⟩
      refine h.call ?_ ?_
      · cases direction <;> decide
      · exact List.forall_mem_cons.2 ⟨hsecret, by simp [isMild]⟩
  | postgresql =>
      cases direction with
      | encrypt =>
          exact (h.cast (by decide)).call (by decide)
            (by simp [isMild, literal, Lexeme.isMild])
      | decrypt =>
          exact (h.cast (by decide)).call (by decide)
            (by simp [isMild, literal, Lexeme.isMild])
  | sqlite => exact h.stopped _

theorem cipher (scope : Scope) (direction : Direction) (settings : Cipher.Settings)
    (h : Frames ok inside f gs) : Frames ok inside (scope.cipher direction settings f) gs := by
  unfold Scope.cipher
  split
  · next key hkey => exact h.keyApply (digest_mem_of_complete hkey) scope.dialect direction
  · exact h.stopped _

theorem preparation (scope : Scope) (prepare : Preparation) (h : Frames ok inside f gs) :
    Frames ok inside (prepare.apply scope f) gs := by
  refine castOptional _ ?_ _
  cases prepare.decrypt with
  | none => exact h
  | some settings => exact h.cipher scope .decrypt settings

theorem parseDate (d : Dialect) (h : Frames ok inside f gs) (pattern : String) :
    Frames ok inside (parseDate d f pattern) gs := by
  unfold QueryTree.parseDate
  split
  · exact h.stopped _
  · cases d with
    | mysql => exact h.call (by decide) (by simp [isMild, text])
    | postgresql => exact h.call (by decide) (by simp [isMild, text])
    | sqlite => exact h.stopped _

theorem formatDate (d : Dialect) (h : Frames ok inside f gs) (pattern : String) :
    Frames ok inside (formatDate d f pattern) gs := by
  unfold QueryTree.formatDate
  split
  · exact h.stopped _
  · cases d with
    | mysql => exact h.call (by decide) (by simp [isMild, text])
    | postgresql => exact h.call (by decide) (by simp [isMild, text])
    | sqlite =>
        have hcomma : ok true (tokens [.comma, .space]) := permits rfl
        exact .append (f := word "STRFTIME") (.leaf (mild (by decide)))
          (.enclosed .parens (.led _ (.append (.leaf hcomma) h.toInside)))

theorem shiftBy (d : Dialect) (shift : Shift) (h : Frames ok inside f gs) (step : Interval.Step) :
    Frames ok inside (shiftBy d shift f step) gs := by
  unfold QueryTree.shiftBy
  cases d with
  | mysql =>
      have hunit : isMildWord step.unit.keyword = true := by
        cases step.unit <;> decide
      have hinterval : (word "INTERVAL").isMild true = true := isMild_word (by decide)
      refine h.call ?_ ?_
      · cases shift <;> decide
      · refine List.forall_mem_singleton.2 (isMild_spaced ?_)
        simp [isMild, hinterval, isMild_word hunit]
  | postgresql =>
      have hamount : ((Fragment.value (.int step.amount)).cast ["INTEGER"]).isMild true = true :=
        isMild_cast (by decide) rfl
      have hrest : ∀ operator, isMildWord operator = true → ∀ g ∈ [word operator,
          (Fragment.value (.int step.amount)).cast ["INTEGER"], word "*", word "INTERVAL",
          literal step.unit.single], ok true g := by
        intro operator ho g hg
        refine permits ?_
        have htimes : (word "*").isMild true = true := isMild_word (by decide)
        have hinterval : (word "INTERVAL").isMild true = true := isMild_word (by decide)
        revert g
        simp [isMild_word ho, hamount, htimes, hinterval, literal, isMild, Lexeme.isMild]
      cases shift with
      | add =>
          have hparts := FramesAll.lead h.toInside (hrest "+" (by decide))
          exact .enclosed .parens hparts.spaced
      | sub =>
          have hparts := FramesAll.lead h.toInside (hrest "-" (by decide))
          exact .enclosed .parens hparts.spaced
  | sqlite =>
      dsimp only
      split
      · exact h.call (by decide) (by simp [isMild, text])
      · exact h.stopped _

theorem shifts (d : Dialect) (shift : Shift) (steps : List Interval.Step)
    (h : Frames ok inside f gs) :
    Frames ok inside (steps.foldl (QueryTree.shiftBy d shift) f) gs := by
  induction steps generalizing f with
  | nil => exact h
  | cons step steps ih => exact ih (h.shiftBy d shift step)

theorem dateChange (d : Dialect) (change : DateChange) (h : Frames ok inside f gs) :
    Frames ok inside (change.apply d f) gs := by
  have hparsed : Frames ok inside (change.fromPattern.elim f (QueryTree.parseDate d f)) gs := by
    cases change.fromPattern with
    | none => exact h
    | some pattern => exact h.parseDate d pattern
  have hshifted := (hparsed.shifts d .add change.add).shifts d .sub change.sub
  unfold DateChange.apply
  cases change.format with
  | none => exact hshifted
  | some pattern => exact hshifted.formatDate d pattern

theorem rounding (d : Dialect) (h : Frames ok inside f gs) (rounding : Rounding) :
    Frames ok inside (rounding.apply d f) gs := by
  cases rounding with
  | digits n =>
      cases d with
      | postgresql => exact (h.cast (by decide)).call (by decide) (by simp [isMild])
      | mysql => exact h.call (by decide) (by simp [isMild])
      | sqlite => exact h.call (by decide) (by simp [isMild])
  | ceil => exact h.call (by decide) (by simp)
  | floor => exact h.call (by decide) (by simp)
  | round => exact h.call (by decide) (by simp)

theorem jsonExtract (d : Dialect) (h : Frames ok inside f gs) (path : String) :
    Frames ok inside (d.jsonExtract f (text path)) gs := by
  cases d with
  | postgresql =>
      have hpath : ((text path).cast ["TEXT[]"]).isMild true = true :=
        isMild_cast (by decide) rfl
      have hjson : Frames ok true (f.cast ["JSONB"]) gs := (h.cast (by decide)).toInside
      exact .enclosed .parens ((FramesAll.lead hjson
        (List.forall_mem_singleton.2 (permits hpath))).operated (by decide))
  | mysql => exact h.call (by decide) (by simp [isMild, text])
  | sqlite => exact h.call (by decide) (by simp [isMild, text])

theorem jsonContains {d : Dialect} {candidate : String} (h : Frames ok inside f gs)
    (hg : d.jsonContains? f (text candidate) = some g) : Frames ok inside g gs := by
  cases d with
  | mysql =>
      cases hg
      exact h.call (by decide) (by simp [isMild, text])
  | postgresql =>
      cases hg
      have hcandidate : ((text candidate).cast ["JSONB"]).isMild inside = true :=
        isMild_cast (by decide) rfl
      exact (FramesAll.lead (h.cast (by decide))
        (List.forall_mem_singleton.2 (permits hcandidate))).operated (by decide)
  | sqlite => cases hg

theorem jsonOptions (d : Dialect) (options : JsonOptions) (h : Frames ok inside f gs) :
    Frames ok inside (options.apply d f) gs := by
  obtain ⟨isArray, aggregate, extract, contains⟩ := options
  -- the test comes after the extraction, so it is settled for any fragment first
  have htested : ∀ {g : Fragment}, Frames ok inside g gs →
      Frames ok inside (JsonOptions.apply d ⟨isArray, aggregate, none, contains⟩ g) gs := by
    intro g hg
    cases contains with
    | none => exact hg
    | some candidate =>
        simp only [JsonOptions.apply]
        split
        · next tested ht => exact hg.jsonContains ht
        · have hcandidate : Frames ok inside (text candidate.compact) [] := .leaf (permits rfl)
          simpa using (hg.append hcandidate).stopped _
  cases extract with
  | none => exact htested h
  | some path => exact htested (h.jsonExtract d _)

theorem collect (d : Dialect) (options : JsonOptions) (h : Frames ok inside f gs) :
    Frames ok inside (options.collect d f) gs := by
  refine ite (h.call ?_ (by simp)) h
  cases d <;> decide

theorem aliased (alias? : Option String) (h : Frames ok inside f gs) :
    Frames ok inside (aliased alias? f) gs := by
  cases alias? with
  | none => exact h
  | some name =>
      have has : ok inside (word "AS") := mild (by decide)
      have hname : ok inside (.outputName name) := permits rfl
      exact (FramesAll.lead h (by simp [has, hname])).spaced

end Fragment.Frames

/-! ## Frames of anything -/

/-- Anything is permitted. -/
def Permit.any : Permit :=
  fun _ _ => True

instance : Permit.Lenient Permit.any := ⟨fun _ => trivial, fun _ => trivial, fun _ => trivial⟩

/-- The fragment holds the parts, in the order of the text, whatever stands around them. -/
abbrev Fragment.Holds (f : Fragment) (gs : List Fragment) : Prop :=
  Frames Permit.any true f gs

/-- The same for fragments, one after the other. -/
abbrev HoldsAll (fs gs : List Fragment) : Prop :=
  FramesAll Permit.any true fs gs

namespace Fragment.Holds

theorem none (f : Fragment) : f.Holds [] :=
  .leaf trivial

/-- The parts of what stands after a fragment. -/
theorem after (f : Fragment) (h : g.Holds gs) : (f ++ g).Holds gs :=
  (none f).append h

/-- The parts of what stands before a fragment. -/
theorem before (h : f.Holds gs) (g : Fragment) : (f ++ g).Holds gs := by
  simpa using h.append (none g)

/-- Two operands with the words of a comparison between them. -/
theorem related (hf : f.Holds gs) (between : Fragment) (hg : g.Holds hs) :
    (spaced [f, between, g]).Holds (gs ++ hs) :=
  (FramesAll.cons hf (.cons (none _) (.cons hg .nil))).spaced.congr (by simp)

theorem clause (keywords : List String) (h : f.Holds gs) : (clause keywords f).Holds gs :=
  after _ (FramesAll.cons (none _) (.cons h .nil) |>.spaced |>.congr (by simp))

end Fragment.Holds

namespace HoldsAll

/-- Fragments without parts in front. -/
theorem skips (h : HoldsAll fs gs) (ks : List Fragment) : HoldsAll (ks ++ fs) gs :=
  (FramesAll.none fun _ _ => trivial).append h

theorem call (function : String) (h : HoldsAll fs gs) : (call function fs).Holds gs :=
  .after _ (.enclosed .parens h.commas)

theorem chain (junction : Junction) (h : HoldsAll fs gs) : (junction.chain fs).Holds gs :=
  h.join trivial trivial

theorem nest (junction : Junction) (h : HoldsAll fs gs) : (junction.nest fs).Holds gs := by
  unfold Junction.nest
  split
  · cases h
    exact .none _
  · next part =>
      obtain _ | ⟨hpart, hnil⟩ := h
      cases hnil
      simpa using hpart
  · exact (chain junction h).parens

theorem group (junction : Junction) (h : HoldsAll fs gs) : (junction.group fs).Holds gs :=
  .ite (.fail _ _) (h.nest junction)

theorem conditionClause (keyword : String) (junction : Junction) (h : HoldsAll fs gs) :
    (conditionClause keyword junction fs).Holds gs := by
  unfold QueryTree.conditionClause
  split
  · next hempty =>
      rw [List.isEmpty_iff.1 hempty] at h
      cases h
      exact .none _
  · exact .clause _ (h.chain junction)

theorem listClause (keywords : List String) (h : HoldsAll fs gs) :
    (listClause keywords fs).Holds gs := by
  unfold QueryTree.listClause
  split
  · next hempty =>
      rw [List.isEmpty_iff.1 hempty] at h
      cases h
      exact .none _
  · exact .clause _ h.commas

theorem inList (field : String) (comparator : Comparator) (hf : f.Holds gs) (h : HoldsAll fs hs) :
    (inList field comparator f fs).Holds (gs ++ hs) := by
  refine .ite (.fail _ _) ?_
  have hlist : (parens (commas fs)).Holds hs := .enclosed .parens h.commas
  exact hf.related _ hlist

theorem concat (d : Dialect) (separator : Option String) (h : HoldsAll fs gs) :
    (concatFragment d separator fs).Holds gs := by
  unfold concatFragment
  split
  · exact ((h.intersperse trivial).operated (by decide)).parens
  · exact (h.operated (by decide)).parens
  · exact (h.skips [_]).call _
  · exact h.call _

end HoldsAll

namespace Fragment.Holds

theorem wildcarded (d : Dialect) (ends : Bool × Bool) (h : f.Holds gs) :
    (wildcarded d ends f).Holds gs := by
  have htext := h.textOperand d
  have hparts : HoldsAll ((if ends.1 then [literal "%"] else []) ++ [d.textOperand f]
      ++ (if ends.2 then [literal "%"] else [])) gs := by
    have hlast : HoldsAll ([d.textOperand f] ++ (if ends.2 then [literal "%"] else [])) gs :=
      .lead htext fun _ _ => trivial
    rw [List.append_assoc]
    exact HoldsAll.skips hlast _
  cases d with
  | mysql => exact HoldsAll.call _ hparts
  | postgresql => exact hparts.join trivial trivial
  | sqlite => exact hparts.join trivial trivial

theorem compareWith (d : Dialect) (comparator : Comparator) (hf : f.Holds gs) (hg : g.Holds hs) :
    (compareWith d comparator f g).Holds (gs ++ hs) := by
  refine hf.related _ ?_
  split
  · exact hg.wildcarded d _
  · exact hg

end Fragment.Holds

end QueryTree
