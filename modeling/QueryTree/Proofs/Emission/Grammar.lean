import QueryTree.Proofs.Binding.Run
import QueryTree.Proofs.Lexing.Tidy
import QueryTree.Sql.Statement

/-!
# The grammar of fragments

The fragments that statements are made of, described apart from the trees that they come from:
phrases, which may stand anywhere between punctuation, and tails, which begin with a space or are
empty.

* `Grammar`: the rules.
* `Grammar.plain`: the leaves are as `Fragment.Plain` asks.
* `Grammar.tidy`: what a phrase or a tail writes is tidy.
-/

namespace QueryTree

open Fragment (word literal tokens join spaced commas operated words parens call)

/-- Whether a word is none of the two that enclose the branches of a case expression. -/
def standsAlone (w : String) : Bool :=
  w != "CASE" && w != "END"

@[simp] theorem standsAlone_iff (w : String) :
    standsAlone w = true ↔ w ≠ "CASE" ∧ w ≠ "END" := by
  simp [standsAlone]

/-- The words that need no other one. -/
def Dialect.phraseWords (dialect : Dialect) : List String :=
  dialect.words.filter standsAlone

@[simp] theorem Dialect.mem_phraseWords {dialect : Dialect} {w : String} :
    w ∈ dialect.phraseWords ↔ w ∈ dialect.words ∧ standsAlone w = true :=
  List.mem_filter

/-- What may stand between two phrases. -/
inductive Separator (dialect : Dialect) : List Lexeme → Prop
  | space : Separator dialect [.space]
  | comma : Separator dialect [.comma, .space]
  | operator {w : String} : w ∈ dialect.phraseWords → Separator dialect [.space, .word w, .space]

/-- The roles of a fragment in a statement. -/
inductive Role where
  | phrase
  | tail
deriving DecidableEq, Repr

/-- The rules that fragments are made by. -/
inductive Grammar (dialect : Dialect) : Role → Fragment → Prop
  | word {w : String} : w ∈ dialect.phraseWords → Grammar dialect .phrase (.token (.word w))
  | literal {s : String} : s ∈ dialect.literals → Grammar dialect .phrase (.token (.literal s))
  | star (s : String) :
      Grammar dialect .phrase
        (.append (.token (.name (Text.pathParts s))) (.token (.word ".*")))
  | value {v : Value} : v.isIdentifier = false → Grammar dialect .phrase (.value v)
  | secret (s : String) : Grammar dialect .phrase (.secret s)
  | path (p : String) : Grammar dialect .phrase (.path p)
  | outputName (name : String) : Grammar dialect .phrase (.outputName name)
  | fail {role : Role} (e : CompileError) : Grammar dialect role (.fail e)
  /-- Whatever stands in front of an error is never written. -/
  | halted {f : Fragment} (e : CompileError) :
      f.Plain dialect → Grammar dialect .phrase (.append f (.fail e))
  | mode {f : Fragment} (m : Cipher.Mode) :
      dialect = .mysql → Grammar dialect .phrase f →
      Grammar dialect .phrase (.append (.mode m) f)
  | parens {f : Fragment} :
      Grammar dialect .phrase f → Grammar dialect .phrase (.enclosed .parens f)
  | call {w : String} {f : Fragment} :
      w ∈ dialect.functions → Grammar dialect .phrase f →
      Grammar dialect .phrase (.append (.token (.word w)) (.enclosed .parens f))
  | led {v : Value} {f : Fragment} :
      dialect = .sqlite → v.isIdentifier = false → Grammar dialect .phrase f →
      Grammar dialect .phrase (.led v (.append (tokens [.comma, .space]) f))
  | cases {f : Fragment} :
      Grammar dialect .tail f → Grammar dialect .phrase (.enclosed .cases f)
  | joined {separator : List Lexeme} {f g : Fragment} :
      Separator dialect separator → Grammar dialect .phrase f → Grammar dialect .phrase g →
      Grammar dialect .phrase (.append (.append f (tokens separator)) g)
  | crossed {left right : Fragment} :
      Grammar dialect .phrase left → Grammar dialect .phrase right →
      Grammar dialect .phrase
        (.crossed left (.append (tokens [.space, .word "=", .space]) right))
  | followed {f g : Fragment} :
      Grammar dialect .phrase f → Grammar dialect .tail g →
      Grammar dialect .phrase (.append f g)
  | empty : Grammar dialect .tail .empty
  | clause {f : Fragment} :
      Grammar dialect .phrase f → Grammar dialect .tail (.append (.token .space) f)
  | clauses {f g : Fragment} :
      Grammar dialect .tail f → Grammar dialect .tail g → Grammar dialect .tail (.append f g)
  | whole {f : Fragment} : Grammar dialect .tail f → Grammar dialect .phrase f

/-- A fragment that may stand anywhere between punctuation. -/
abbrev Phrase (dialect : Dialect) (f : Fragment) : Prop :=
  Grammar dialect .phrase f

/-- A fragment that begins with a space or is empty. -/
abbrev Tail (dialect : Dialect) (f : Fragment) : Prop :=
  Grammar dialect .tail f

variable {dialect : Dialect}

/-! ## What the rules entail -/

theorem plain_tokens {ts : List Lexeme} (h : Separator dialect ts) :
    (tokens ts).Plain dialect := by
  cases h <;> simp [tokens, Fragment.Plain]

theorem Grammar.plain {role : Role} {f : Fragment} (h : Grammar dialect role f) :
    f.Plain dialect := by
  induction h with
  | halted e hf => exact ⟨hf, trivial⟩
  | joined hsep _ _ ihf ihg => exact ⟨⟨ihf, plain_tokens hsep⟩, ihg⟩
  | value hv => exact hv
  | mode m hd _ ih => exact ⟨hd, ih⟩
  | led hd hv _ ih => exact ⟨hd, hv, plain_tokens .comma, ih⟩
  | crossed _ _ ihl ihr => exact ⟨ihl, by simp [tokens, Fragment.Plain], ihr⟩
  | followed _ _ ihf ihg => exact ⟨ihf, ihg⟩
  | clauses _ _ ihf ihg => exact ⟨ihf, ihg⟩
  | call _ _ ih => exact ⟨by simp [Fragment.Plain], ih⟩
  | clause _ ih => exact ⟨by simp [Fragment.Plain], ih⟩
  | parens _ ih => exact ih
  | cases _ ih => exact ih
  | whole _ ih => exact ih
  | _ => simp [Fragment.Plain]

/-- What a phrase writes is tidy; so is what a tail writes, and it begins with a separator. -/
def Role.Writes (dialect : Dialect) : Role → List Lexeme → Prop
  | .phrase, ts => Tidy dialect ts
  | .tail, ts => Tidy dialect ts ∧ ∀ t ∈ ts.head?, t.isSeparator = true

theorem tidy_separator {ts us : List Lexeme} (h : Separator dialect ts)
    (hus : Tidy dialect us) :
    Tidy dialect (ts ++ us) ∧ ∀ t ∈ (ts ++ us).head?, t.isSeparator = true := by
  cases h with
  | space => exact ⟨⟨trivial, hus⟩, by simp [Lexeme.isSeparator]⟩
  | comma => exact ⟨⟨trivial, trivial, hus⟩, by simp [Lexeme.isSeparator]⟩
  | operator hw =>
      refine ⟨⟨trivial, ?_, trivial, hus⟩, by simp [Lexeme.isSeparator]⟩
      exact ⟨(Dialect.mem_phraseWords.1 hw).1, Lexeme.clear_of_isSeparator rfl⟩

theorem tidy_parens {ts : List Lexeme} (h : Tidy dialect ts) :
    Tidy dialect (.opening :: (ts ++ [.closing])) :=
  Tidy.cons_punctuation rfl (h.append ⟨trivial, trivial⟩ (by simp [Lexeme.isSeparator]))

/-- Branches are tidy between the words around them. -/
theorem tidy_cases {ts : List Lexeme} (h : Tidy dialect ts)
    (hhead : ∀ t ∈ ts.head?, t.isSeparator = true) :
    Tidy dialect (Delimiters.cases.left ++ (ts ++ Delimiters.cases.right)) := by
  have hcase : "CASE" ∈ dialect.words := dialect.mem_words_of_common (by simp [commonWords])
  have hend : "END" ∈ dialect.words := dialect.mem_words_of_common (by simp [commonWords])
  have hleft : Tidy dialect Delimiters.cases.left :=
    ⟨⟨hcase, by simp [Lexeme.Clear]⟩, trivial⟩
  have hright : Tidy dialect Delimiters.cases.right :=
    ⟨trivial, ⟨hend, by simp [Lexeme.Clear]⟩, trivial⟩
  refine hleft.append (h.append hright (by simp [Delimiters.right, Lexeme.isSeparator])) ?_
  cases ts with
  | nil => simp [Delimiters.right, Lexeme.isSeparator]
  | cons t ts => simpa using hhead

/-- **What a fragment of the grammar writes is tidy.** -/
theorem Grammar.tidy {role : Role} {f : Fragment} (h : Grammar dialect role f)
    {b b' : Bindings} {ts : List Lexeme} (hrun : f.run dialect b = (.ok ts, b')) :
    role.Writes dialect ts := by
  induction h generalizing b b' ts with
  | word hw =>
      cases hrun
      exact ⟨⟨(Dialect.mem_phraseWords.1 hw).1, by simp [Lexeme.Clear]⟩, trivial⟩
  | literal hs =>
      cases hrun
      exact ⟨⟨hs, by simp [Lexeme.Clear]⟩, trivial⟩
  | star s =>
      cases hrun
      refine ⟨⟨⟨s, .inl rfl⟩, .inr rfl⟩, ⟨?_, by simp [Lexeme.Clear]⟩, trivial⟩
      exact dialect.mem_words_of_common (by simp [commonWords])
  | value hv =>
      cases hrun
      exact ⟨by simp [Lexeme.Fits, Lexeme.Clear], trivial⟩
  | secret s =>
      cases hrun
      exact ⟨by simp [Lexeme.Fits, Lexeme.Clear], trivial⟩
  | path p =>
      cases dialect <;> cases hrun
      · exact ⟨⟨rfl, by simp [Lexeme.Clear]⟩, trivial⟩
      · exact ⟨⟨⟨p, .inl rfl⟩, .inl (by simp [Lexeme.Clear])⟩, trivial⟩
      · exact ⟨⟨⟨p, .inl rfl⟩, .inl (by simp [Lexeme.Clear])⟩, trivial⟩
  | outputName name =>
      cases dialect <;> cases hrun
      · exact ⟨by simp [Lexeme.Fits, Lexeme.Clear], trivial⟩
      · exact ⟨⟨⟨name, .inr rfl⟩, .inl (by simp [Lexeme.Clear])⟩, trivial⟩
      · exact ⟨⟨⟨name, .inr rfl⟩, .inl (by simp [Lexeme.Clear])⟩, trivial⟩
  | fail e => simp [Fragment.run] at hrun
  | halted e hf => exact absurd hrun (Fragment.run_append_fail_ne_ok _ e)
  | mode m hd hf ih =>
      obtain ⟨ts₁, b₁, ts₂, hmode, hrest, rfl⟩ := Fragment.run_append_ok.1 hrun
      obtain ⟨-, rfl⟩ := Fragment.run_mode_ok.1 hmode
      exact ih hrest
  | parens hf ih =>
      obtain ⟨us, hbody, rfl⟩ := Fragment.run_enclosed_ok.1 hrun
      exact tidy_parens (ih hbody)
  | call hw hf ih =>
      obtain ⟨ts₁, b₁, ts₂, hword, hbody, rfl⟩ := Fragment.run_append_ok.1 hrun
      obtain ⟨us, hinner, rfl⟩ := Fragment.run_enclosed_ok.1 hbody
      cases hword
      refine ⟨?_, tidy_parens (ih hinner)⟩
      simpa [Lexeme.Fits, Delimiters.left] using hw
  | led hd hv hf ih =>
      obtain ⟨us, b₁, hbody, rfl, -⟩ := Fragment.run_led_ok.1 hrun
      obtain ⟨ts₁, b₂, ts₂, hsep, hrest, rfl⟩ := Fragment.run_append_ok.1 hbody
      cases hsep
      exact ⟨Lexeme.clear_of_isSeparator rfl, trivial, trivial, ih hrest⟩
  | cases hf ih =>
      obtain ⟨us, hbody, rfl⟩ := Fragment.run_enclosed_ok.1 hrun
      rw [List.append_assoc]
      exact tidy_cases (ih hbody).1 (ih hbody).2
  | joined hsep hf hg ihf ihg =>
      obtain ⟨ts₁, b₁, ts₂, hleft, hright, rfl⟩ := Fragment.run_append_ok.1 hrun
      obtain ⟨ts₃, b₂, ts₄, hfirst, htokens, rfl⟩ := Fragment.run_append_ok.1 hleft
      rw [Fragment.run_tokens] at htokens
      cases htokens
      have hrest := tidy_separator hsep (ihg hright)
      rw [List.append_assoc]
      exact (ihf hfirst).append hrest.1 hrest.2
  | crossed hl hr ihl ihr =>
      obtain ⟨us, b₁, ls, hright, hleft, rfl⟩ := Fragment.run_crossed_ok.1 hrun
      obtain ⟨ts₁, b₂, ts₂, htokens, hrest, rfl⟩ := Fragment.run_append_ok.1 hright
      rw [Fragment.run_tokens] at htokens
      cases htokens
      have heq : "=" ∈ dialect.phraseWords := by simp [Dialect.words, commonWords]
      have hus := tidy_separator (.operator heq) (ihr hrest)
      exact (ihl hleft).append hus.1 hus.2
  | followed hf hg ihf ihg =>
      obtain ⟨ts₁, b₁, ts₂, hfirst, hsecond, rfl⟩ := Fragment.run_append_ok.1 hrun
      have htail := ihg hsecond
      exact (ihf hfirst).append htail.1 htail.2
  | empty =>
      cases hrun
      exact ⟨trivial, by simp⟩
  | clause hf ih =>
      obtain ⟨ts₁, b₁, ts₂, hspace, hrest, rfl⟩ := Fragment.run_append_ok.1 hrun
      cases hspace
      exact tidy_separator .space (ih hrest)
  | clauses hf hg ihf ihg =>
      obtain ⟨ts₁, b₁, ts₂, hfirst, hsecond, rfl⟩ := Fragment.run_append_ok.1 hrun
      have hleft := ihf hfirst
      have hright := ihg hsecond
      refine ⟨hleft.1.append hright.1 hright.2, ?_⟩
      cases ts₁ with
      | nil => simpa using hright.2
      | cons t ts₁ => simpa using hleft.2
  | whole hf ih => exact (ih hrun).1

end QueryTree
