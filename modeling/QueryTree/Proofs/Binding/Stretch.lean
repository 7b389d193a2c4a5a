import QueryTree.Proofs.Binding.Content
import QueryTree.Proofs.Binding.Shift
import QueryTree.Proofs.Binding.Written

/-!
# Stretches of a statement

A stretch is a piece of a bound statement, with its placeholders numbered as if it stood alone.
Stretches are put together as fragments are, and what is bound first moves on the numbers of what
comes after it.

* `Stretch`: lexemes with the values they stand for.
* `Stretch.join`, `spaced`, `commas`, `parens`, `call`: ways to put stretches together.
* `Stretch.Follows`: a stretch written after other values.
* `Fragment.stretch`: what a fragment amounts to when it is bound; `stretch_append`,
  `stretch_join`, `stretch_call` say that it is put together as the fragment is.
* `Fragment.follows_of_sql`: a fragment that compiles is written as its stretch.
-/

namespace QueryTree

/-- A piece of a statement with its values; its placeholders are numbered from the first value. -/
structure Stretch where
  lexemes : List Lexeme
  values : List Value
deriving DecidableEq, Repr

namespace Stretch

/-- Nothing is written. -/
def empty : Stretch :=
  ⟨[], []⟩

/-- A stretch after another one: its numbers are moved on by the values of the other. -/
def append (s t : Stretch) : Stretch :=
  ⟨s.lexemes ++ t.lexemes.map (Lexeme.shift s.values.length), s.values ++ t.values⟩

instance : Append Stretch := ⟨Stretch.append⟩

/-- Fixed lexemes. -/
def fixed (ts : List Lexeme) : Stretch :=
  ⟨ts, []⟩

/-- A keyword, function, operator or numeral. -/
def word (w : String) : Stretch :=
  fixed [.word w]

/-- A fixed text between single quotes. -/
def literal (s : String) : Stretch :=
  fixed [.literal s]

/-- A value that is bound. -/
def bound (v : Value) : Stretch :=
  ⟨[.slot 1], [v]⟩

/-- An identifier path. -/
def path (dialect : Dialect) (p : String) : Stretch :=
  if dialect.bindsNames then ⟨[.nameSlot], [.identifier p]⟩ else fixed [.name (Text.pathParts p)]

/-- A stretch in parentheses. -/
def parens (s : Stretch) : Stretch :=
  ⟨.opening :: s.lexemes ++ [.closing], s.values⟩

/-- Stretches with fixed lexemes between them. -/
def join (separator : List Lexeme) : List Stretch → Stretch
  | [] => empty
  | [s] => s
  | s :: rest => s ++ fixed separator ++ join separator rest

/-- Stretches with a space between them. -/
def spaced (parts : List Stretch) : Stretch :=
  join [.space] parts

/-- Stretches with a comma and a space between them. -/
def commas (parts : List Stretch) : Stretch :=
  join [.comma, .space] parts

/-- Several words. -/
def words (ws : List String) : Stretch :=
  spaced (ws.map word)

/-- A function applied to arguments. -/
def call (function : String) (arguments : List Stretch) : Stretch :=
  word function ++ parens (commas arguments)

/-- The conversion of a stretch to a type. -/
def cast (body : Stretch) (type : List String) : Stretch :=
  word "CAST" ++ parens (spaced [body, word "AS", words type])

/-- The text and the bindings are those of a stretch that is written after bindings. -/
structure Follows (dialect : Dialect) (s : Stretch) (b : Bindings) (text : String)
    (b' : Bindings) : Prop where
  text_eq : text = render dialect (s.lexemes.map (Lexeme.shift b.index))
  values_eq : b'.values = b.values ++ s.values
  index_eq : b'.index = b.index + s.values.length

end Stretch

/-- Numbers that are moved on twice. -/
theorem Lexeme.map_shift_add (ts : List Lexeme) (n k : Nat) :
    ts.map (Lexeme.shift (n + k)) = (ts.map (Lexeme.shift k)).map (Lexeme.shift n) := by
  have hshift : ∀ t : Lexeme, (t.shift k).shift n = t.shift (n + k) := by
    intro t
    cases t with
    | slot index =>
        simp only [Lexeme.shift, Lexeme.slot.injEq]
        omega
    | _ => rfl
  simp [Function.comp_def, hshift]

namespace Stretch

@[simp]
theorem values_append (s t : Stretch) : (s ++ t).values = s.values ++ t.values := rfl

@[simp]
theorem values_fixed (ts : List Lexeme) : (fixed ts).values = [] := rfl

@[simp]
theorem values_parens (s : Stretch) : s.parens.values = s.values := rfl

@[simp]
theorem values_join (separator : List Lexeme) (parts : List Stretch) :
    (join separator parts).values = parts.flatMap values := by
  induction parts with
  | nil => rfl
  | cons s parts ih =>
      cases parts with
      | nil => simp [join]
      | cons t parts => simp [join, ih]

end Stretch

namespace Fragment

variable {dialect : Dialect}

/-- **After some values a plain fragment writes what it writes after none, moved on.** -/
theorem lexemes_of_plain {f : Fragment} (hf : f.Plain dialect) (n : Nat) :
    f.lexemes dialect n = (f.lexemes dialect 0).map (Lexeme.shift n) := by
  induction f generalizing n with
  | empty | mode m | fail e => rfl
  | token t =>
      cases t with
      | slot index => exact absurd rfl (hf.1 index)
      | _ => rfl
  | value v | secret s => simp [lexemes, Lexeme.shift, Nat.add_comm]
  | path p =>
      simp only [lexemes]
      split <;> rfl
  | outputName name =>
      simp only [lexemes]
      split <;> simp [Lexeme.shift, Nat.add_comm]
  | enclosed delimiters body ih =>
      simp only [lexemes, ih hf n, List.map_append, map_shift_left, map_shift_right]
  | append first second ihf ihs =>
      simp only [lexemes, List.map_append]
      rw [ihf hf.1 n, ihs hf.2 (n + _), ihs hf.2 (0 + _), Nat.zero_add, Lexeme.map_shift_add]
  | crossed left right ihl ihr =>
      simp only [lexemes, List.map_append]
      rw [ihr hf.2 n, ihl hf.1 (n + _), ihl hf.1 (0 + _), Nat.zero_add, Lexeme.map_shift_add]
  | led v body ih =>
      simp only [lexemes, List.map_cons, Lexeme.shift, ih hf.2.2 n]
      congr 2
      omega

/-- What a fragment amounts to when it is bound. -/
def stretch (dialect : Dialect) (f : Fragment) : Stretch :=
  ⟨f.lexemes dialect 0, (f.stored dialect).map Stored.value⟩

/-! ## Fragments put together -/

theorem stretch_append {f g : Fragment} (hg : g.Plain dialect) :
    (f ++ g).stretch dialect = f.stretch dialect ++ g.stretch dialect := by
  have hlength : ((f.stored dialect).map Stored.value).length = (f.stored dialect).length :=
    List.length_map _
  have hlexemes : (f ++ g).lexemes dialect 0 = f.lexemes dialect 0
      ++ (g.lexemes dialect 0).map (Lexeme.shift (f.stored dialect).length) := by
    change f.lexemes dialect 0 ++ g.lexemes dialect (0 + (f.stored dialect).length) = _
    rw [Nat.zero_add, lexemes_of_plain hg]
  change Stretch.mk _ _ = Stretch.mk _ _
  rw [hlexemes, stored_append, List.map_append, ← hlength]
  rfl

theorem stretch_tokens (ts : List Lexeme) : (tokens ts).stretch dialect = .fixed ts := by
  have hlexemes : (tokens ts).lexemes dialect 0 = ts := by
    induction ts with
    | nil => rfl
    | cons t ts ih => simpa [tokens, lexemes, stored] using ih
  rw [stretch, hlexemes, stored_tokens]
  rfl

theorem stretch_path (p : String) : (path p).stretch dialect = .path dialect p := by
  cases hd : dialect.bindsNames <;> simp [stretch, lexemes, stored, Stretch.path, Stretch.fixed, hd]

theorem stretch_parens (f : Fragment) :
    (parens f).stretch dialect = .parens (f.stretch dialect) :=
  rfl

@[simp]
theorem plain_parens {f : Fragment} : (parens f).Plain dialect ↔ f.Plain dialect := Iff.rfl

@[simp]
theorem plain_word (w : String) : (word w).Plain dialect := by
  simp [word, Plain]

@[simp]
theorem plain_path (p : String) : (path p).Plain dialect := trivial

@[simp]
theorem plain_secret (s : String) : (secret s).Plain dialect := trivial

/-- A list of plain fragments, one after the other. -/
theorem plain_join {separator : List Lexeme} (hs : (tokens separator).Plain dialect)
    {fs : List Fragment} (h : ∀ f ∈ fs, f.Plain dialect) : (join separator fs).Plain dialect := by
  induction fs with
  | nil => trivial
  | cons f fs ih =>
      rw [List.forall_mem_cons] at h
      cases fs with
      | nil => exact h.1
      | cons g fs => exact ⟨⟨h.1, hs⟩, ih h.2⟩

theorem stretch_join {separator : List Lexeme} (hs : (tokens separator).Plain dialect)
    {fs : List Fragment} (h : ∀ f ∈ fs, f.Plain dialect) :
    (join separator fs).stretch dialect = .join separator (fs.map (stretch dialect)) := by
  induction fs with
  | nil => rfl
  | cons f fs ih =>
      rw [List.forall_mem_cons] at h
      cases fs with
      | nil => rfl
      | cons g fs =>
          have hrest := plain_join hs h.2
          calc (f ++ tokens separator ++ join separator (g :: fs)).stretch dialect
              = f.stretch dialect ++ .fixed separator ++ (join separator (g :: fs)).stretch dialect
                := by rw [stretch_append hrest, stretch_append hs, stretch_tokens]
            _ = _ := by rw [ih h.2]; rfl

theorem plain_spaced {fs : List Fragment} (h : ∀ f ∈ fs, f.Plain dialect) :
    (spaced fs).Plain dialect :=
  plain_join (by simp [tokens, Plain]) h

theorem stretch_spaced {fs : List Fragment} (h : ∀ f ∈ fs, f.Plain dialect) :
    (spaced fs).stretch dialect = .spaced (fs.map (stretch dialect)) :=
  stretch_join (by simp [tokens, Plain]) h

theorem plain_commas {fs : List Fragment} (h : ∀ f ∈ fs, f.Plain dialect) :
    (commas fs).Plain dialect :=
  plain_join (by simp [tokens, Plain]) h

theorem stretch_commas {fs : List Fragment} (h : ∀ f ∈ fs, f.Plain dialect) :
    (commas fs).stretch dialect = .commas (fs.map (stretch dialect)) :=
  stretch_join (by simp [tokens, Plain]) h

@[simp]
theorem plain_words (ws : List String) : (words ws).Plain dialect :=
  plain_spaced (by simp)

theorem stretch_words (ws : List String) : (words ws).stretch dialect = .words ws := by
  rw [words, stretch_spaced (by simp), List.map_map]
  rfl

theorem plain_call (function : String) {arguments : List Fragment}
    (h : ∀ f ∈ arguments, f.Plain dialect) : (call function arguments).Plain dialect :=
  ⟨plain_word function, plain_commas h⟩

theorem stretch_call (function : String) {arguments : List Fragment}
    (h : ∀ f ∈ arguments, f.Plain dialect) :
    (call function arguments).stretch dialect
      = .call function (arguments.map (stretch dialect)) := by
  rw [call, stretch_append (plain_parens.2 (plain_commas h)), stretch_parens, stretch_commas h]
  rfl

theorem plain_cast {f : Fragment} (hf : f.Plain dialect) (type : List String) :
    (f.cast type).Plain dialect :=
  ⟨plain_word "CAST", plain_spaced (by simp [hf])⟩

theorem stretch_cast {f : Fragment} (hf : f.Plain dialect) (type : List String) :
    (f.cast type).stretch dialect = (f.stretch dialect).cast type := by
  have hparts : ∀ g ∈ [f, word "AS", words type], g.Plain dialect := by simp [hf]
  rw [cast, stretch_append (plain_parens.2 (plain_spaced hparts)), stretch_parens,
    stretch_spaced hparts, List.map_cons, List.map_cons, List.map_cons, stretch_words]
  rfl

/-! ## Binding -/

/-- **A plain fragment that compiles is written as its stretch.** -/
theorem follows_of_sql {f : Fragment} (hf : f.Plain dialect) {b b' : Bindings} {text : String}
    (h : f.sql dialect b = (.ok text, b')) : (f.stretch dialect).Follows dialect b text b' := by
  obtain ⟨ts, hrun, rfl⟩ := sql_ok.1 h
  rcases f.run_or_stop dialect b with ⟨mode, -, hruns⟩ | ⟨e, -, hstops⟩
  · rw [hrun] at hruns
    cases hruns
    exact ⟨by rw [lexemes_of_plain hf]; rfl, rfl, by simp [extend, stretch]⟩
  · rw [hrun] at hstops
    cases hstops

end Fragment

end QueryTree
