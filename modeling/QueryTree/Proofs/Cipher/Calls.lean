import QueryTree.Proofs.Binding.Content
import QueryTree.Proofs.Cipher.Policy
import QueryTree.Proofs.Cipher.Tree
import QueryTree.Proofs.Nesting.Face

/-!
# Calls of ciphers

The calls of `AES_ENCRYPT` and `AES_DECRYPT` in a text, at any depth, and the keys that they were
written for.

* `callsOf`: the arguments of all such calls in an outline.
* `Cipher.Key.IsCall`: the arguments that are written for a key: an operand, the hashed secret and,
  if blocks are chained, the initial vector.
* `Cipher.Resolved`: keys that settings resolve to.
* `Fragment.Ciphers`: the keys of a fragment, in the order of the text; `respected_ciphers` says
  that every fragment of a tree has some.
* `Fragment.Ciphers.mode_mem_hurdles`, `Fragment.Ciphers.writesCalls`: the block modes that are
  asked for, and the calls that are written, are those of the keys.
-/

namespace QueryTree

open Fragment (word call commas tokens)
open Cipher (Settings Key)

/-! ## Calls in an outline -/

/-- Whether a piece is the name of a cipher. -/
def Piece.isCipher (p : Piece) : Bool :=
  p.word?.any cipherFunctions.contains

mutual

/-- The arguments of the calls in a piece, which may itself be the arguments of a cipher named in
front of it. -/
def Piece.calls (named : Bool) : Piece → List (List Piece)
  | .token _ => []
  | .enclosed delimiters body =>
    (if named && delimiters = .parens then [body] else []) ++ callsAfter false body

/-- The arguments of the calls in pieces, after a cipher is named or not. -/
def callsAfter (named : Bool) : List Piece → List (List Piece)
  | [] => []
  | p :: ps => p.calls named ++ callsAfter p.isCipher ps

end

/-- The arguments of all calls of ciphers in an outline, at any depth. -/
def callsOf (ps : List Piece) : List (List Piece) :=
  callsAfter false ps

theorem callsOf_nil : callsOf [] = [] := rfl

theorem callsAfter_cons (named : Bool) (p : Piece) (ps : List Piece) :
    callsAfter named (p :: ps) = p.calls named ++ callsAfter p.isCipher ps := rfl

theorem Piece.calls_enclosed (named : Bool) (delimiters : Delimiters) (body : List Piece) :
    (Piece.enclosed delimiters body).calls named
      = (if named && delimiters = .parens then [body] else []) ++ callsOf body := rfl

theorem Piece.isCipher_enclosed (delimiters : Delimiters) (body : List Piece) :
    (Piece.enclosed delimiters body).isCipher = false := rfl

/-- No cipher is named at the end, so that the calls of what follows are its own. -/
def Settled (ps : List Piece) : Prop :=
  ∀ qs, callsOf (ps ++ qs) = callsOf ps ++ callsOf qs

theorem settled_nil : Settled [] := fun _ => rfl

theorem Settled.append {ps qs : List Piece} (hps : Settled ps) (hqs : Settled qs) :
    Settled (ps ++ qs) := by
  intro rs
  rw [List.append_assoc, hps, hqs, hps, List.append_assoc]

theorem callsOf_enclosed_append (delimiters : Delimiters) (body qs : List Piece) :
    callsOf (.enclosed delimiters body :: qs) = callsOf body ++ callsOf qs := by
  rw [callsOf, callsAfter_cons, Piece.calls_enclosed, Piece.isCipher_enclosed]
  rfl

theorem callsOf_enclosed (delimiters : Delimiters) (body : List Piece) :
    callsOf [.enclosed delimiters body] = callsOf body := by
  rw [callsOf_enclosed_append, callsOf_nil, List.append_nil]

theorem settled_enclosed (delimiters : Delimiters) (body : List Piece) :
    Settled [.enclosed delimiters body] := by
  intro qs
  rw [callsOf_enclosed, List.singleton_append, callsOf_enclosed_append]

theorem settled_token {a : Atom} (h : (Piece.token a).isCipher = false) :
    Settled [.token a] := by
  intro qs
  rw [List.singleton_append, callsOf, callsAfter_cons, h]
  rfl

theorem isCipher_of_mem {w : String} (hw : w ∈ cipherFunctions) :
    (Piece.token (.bare w)).isCipher = true := by
  simpa [Piece.isCipher, Piece.word?] using hw

/-- A cipher and its arguments. -/
theorem callsOf_call_append {w : String} (hw : w ∈ cipherFunctions)
    (arguments qs : List Piece) :
    callsOf (.token (.bare w) :: .enclosed .parens arguments :: qs)
      = arguments :: (callsOf arguments ++ callsOf qs) := by
  rw [callsOf, callsAfter_cons, isCipher_of_mem hw, callsAfter_cons, Piece.calls_enclosed,
    Piece.isCipher_enclosed]
  rfl

theorem callsOf_call {w : String} (hw : w ∈ cipherFunctions) (arguments : List Piece) :
    callsOf [.token (.bare w), .enclosed .parens arguments] = arguments :: callsOf arguments := by
  rw [callsOf_call_append hw, callsOf_nil, List.append_nil]

theorem settled_call {w : String} (hw : w ∈ cipherFunctions) (arguments : List Piece) :
    Settled [.token (.bare w), .enclosed .parens arguments] := by
  intro qs
  rw [callsOf_call hw, List.cons_append, List.singleton_append, callsOf_call_append hw]
  rfl

/-! ## Keys -/

/-- The hashed secret as an argument. -/
def hashPieces (digest : Nat) : List Piece :=
  [.token (.bare "UNHEX"), .enclosed .parens [.token (.bare "SHA2"), .enclosed .parens
    [.token .question, .token .comma, .token (.bare (Decimal.natText digest))]]]

/-- What follows the operand: the hashed secret and, if blocks are chained, the initial vector. -/
def keyPieces (chained : Bool) (digest : Nat) : List Piece :=
  .token .comma :: hashPieces digest
    ++ if chained then [.token .comma, .token .question] else []

/-- The arguments of a call that was written for a key. -/
def Cipher.Key.IsCall (key : Key) (arguments : List Piece) : Prop :=
  ∃ operand, arguments = operand ++ keyPieces key.mode.chained key.digest

/-- The key is what some settings of a column, a call and a query resolve to under a model. -/
def Cipher.Resolved (model : Option Settings) (key : Key) : Prop :=
  ∃ column call query, Cipher.resolve column call query model = .ok key

/-- A key has a vector exactly if blocks are chained, and a digest of a known size. -/
theorem Cipher.Settings.complete_ok {settings : Settings} {key : Key}
    (h : settings.complete = .ok key) :
    key.vector.isSome = key.mode.chained ∧ key.digest ∈ Cipher.digestSizes := by
  obtain ⟨mode, secret, vector, digest⟩ := settings
  cases secret with
  | none => cases h
  | some secret =>
      change (Cipher.vectorFor (mode.getD default) vector >>= fun vector => _) = _ at h
      cases hvector : Cipher.vectorFor (mode.getD default) vector with
      | error e =>
          rw [hvector] at h
          cases h
      | ok v =>
          rw [hvector] at h
          change (if Cipher.digestSizes.contains (digest.getD Cipher.defaultDigest) then _ else _)
            = _ at h
          split at h
          · next hdigest =>
              cases h
              refine ⟨?_, by simpa using hdigest⟩
              unfold Cipher.vectorFor at hvector
              split at hvector
              · next hneeds =>
                  cases vector with
                  | none => cases hvector
                  | some vector =>
                      cases hvector
                      exact hneeds.symm
              · next hneeds =>
                  cases hvector
                  exact (eq_false_of_ne_true hneeds).symm
          · cases h

/-! ## Keys of a fragment -/

/-- The keys of the ciphers that a fragment calls, in the order of the text. -/
inductive Fragment.Ciphers (model : Option Settings) : Fragment → List Key → Prop
  | empty : Ciphers model .empty []
  | token {t : Lexeme} : t.isOrdinary = true → Ciphers model (.token t) []
  | name (parts : List String) : Ciphers model (.token (.name parts)) []
  | value (v : Value) : Ciphers model (.value v) []
  | path (p : String) : Ciphers model (.path p) []
  | outputName (name : String) : Ciphers model (.outputName name) []
  | fail (e : CompileError) : Ciphers model (.fail e) []
  | enclosed (delimiters : Delimiters) {f : Fragment} {keys : List Key} :
      Ciphers model f keys → Ciphers model (.enclosed delimiters f) keys
  | append {f g : Fragment} {keys keys' : List Key} :
      Ciphers model f keys → Ciphers model g keys' → Ciphers model (.append f g) (keys ++ keys')
  | crossed {f g : Fragment} {keys keys' : List Key} :
      Ciphers model f keys → Ciphers model g keys' → Ciphers model (.crossed f g) (keys ++ keys')
  | led (v : Value) {f : Fragment} {keys : List Key} :
      Ciphers model f keys → Ciphers model (.led v f) keys
  | cipher (direction : Direction) {key : Key} {f : Fragment} {keys : List Key} :
      Cipher.Resolved model key → Ciphers model f keys →
      Ciphers model (key.apply .mysql direction f) (key :: keys)

/-- Everything that is written on a dialect with block modes has its keys. -/
theorem respected_ciphers (model : Option Settings) :
    Recasting.keep.Respected .keep .mysql model fun f _ => ∃ keys, f.Ciphers model keys where
  empty := ⟨[], .empty⟩
  token ht := ⟨[], .token ht⟩
  value v := ⟨[], .value v⟩
  path p := ⟨[], .path p⟩
  fail e := ⟨[], .fail e⟩
  enclosed delimiters _ _ := fun ⟨keys, h⟩ => ⟨keys, h.enclosed delimiters⟩
  append := fun ⟨keys, hf⟩ ⟨keys', hg⟩ => ⟨keys ++ keys', hf.append hg⟩
  name parts := ⟨[], .name parts⟩
  outputName name := ⟨[], .outputName name⟩
  crossed := fun ⟨keys, hf⟩ ⟨keys', hg⟩ => ⟨keys ++ keys', hf.crossed hg⟩
  led v _ _ := fun ⟨keys, h⟩ => ⟨keys, h.led v⟩
  pass {scope} hs direction settings f _ := by
    rintro ⟨keys, hf⟩
    change ∃ keys, ((scope.recast .keep).cipher direction settings f).Ciphers model keys
    have hdialect : (scope.recast .keep).dialect = .mysql := hs.dialect_eq
    have hmodel : (scope.recast .keep).layers.model = model :=
      (Recasting.aroundOf_keep _).trans hs.model_eq
    unfold Scope.cipher
    cases hresolve : (scope.recast .keep).resolve (some settings) with
    | error e => exact ⟨keys ++ [], hf.append (.fail e)⟩
    | ok key =>
        rw [Scope.resolve, hmodel] at hresolve
        simp only [hdialect]
        exact ⟨key :: keys, hf.cipher direction ⟨_, _, _, hresolve⟩⟩

namespace Fragment.Ciphers

variable {model : Option Settings} {f : Fragment} {keys : List Key}

theorem resolved (h : f.Ciphers model keys) : ∀ key ∈ keys, Cipher.Resolved model key := by
  induction h with
  | enclosed _ _ ih => exact ih
  | led _ _ ih => exact ih
  | append _ _ ihf ihg | crossed _ _ ihf ihg =>
      intro key hkey
      exact (List.mem_append.1 hkey).elim (ihf key) (ihg key)
  | cipher _ hkey _ ih =>
      intro key' hkey'
      obtain rfl | hkey' := List.mem_cons.1 hkey'
      · exact hkey
      · exact ih key' hkey'
  | _ => nofun

/-- **The block modes that are asked for are those of the keys.** -/
theorem mode_mem_hurdles (h : f.Ciphers model keys) (m : Cipher.Mode) :
    Hurdle.mode m ∈ f.hurdles ↔ ∃ key ∈ keys, key.mode = m := by
  induction h with
  | enclosed _ _ ih => exact ih
  | led _ _ ih => exact ih
  | append _ _ ihf ihg =>
      simp only [Fragment.hurdles, List.mem_append, ihf, ihg, or_and_right, exists_or]
  | crossed _ _ ihf ihg =>
      simp only [Fragment.hurdles, List.mem_append, ihf, ihg, or_and_right, exists_or]
      exact or_comm
  | @cipher direction key f keys _ _ ih =>
      have hhurdles : (key.apply .mysql direction f).hurdles = f.hurdles ++ [.mode key.mode] := by
        have hvector : (key.vector.toList.map Fragment.secret).flatMap hurdles = [] := by
          cases key.vector <;> rfl
        simp [Key.apply, hashedSecret, Fragment.call, Fragment.commas, hvector, hurdles]
      simp only [hhurdles, List.mem_append, ih, List.mem_cons, List.not_mem_nil, or_false,
        Hurdle.mode.injEq, exists_eq_or_imp]
      rw [or_comm, eq_comm]
  | _ => simp [Fragment.hurdles]

end Fragment.Ciphers

/-! ## Calls of a fragment -/

/-- A fragment writes a call for each key. -/
def Fragment.WritesCalls (f : Fragment) (keys : List Key) : Prop :=
  ∀ n, ∃ ps, Outlines .mysql (f.lexemes .mysql n) ps ∧ Settled ps
    ∧ List.Forall₂ Key.IsCall keys (callsOf ps)

namespace Fragment.WritesCalls

variable {f g : Fragment} {keys keys' : List Key}

theorem append (hf : f.WritesCalls keys) (hg : g.WritesCalls keys') :
    (Fragment.append f g).WritesCalls (keys ++ keys') := by
  intro n
  obtain ⟨ps, hps, hsettled, hcalls⟩ := hf n
  obtain ⟨qs, hqs, hsettled', hcalls'⟩ := hg (n + (f.stored .mysql).length)
  refine ⟨ps ++ qs, hps.append hqs, hsettled.append hsettled', ?_⟩
  rw [hsettled]
  exact List.rel_append hcalls hcalls'

theorem crossed (hf : f.WritesCalls keys) (hg : g.WritesCalls keys') :
    (Fragment.crossed f g).WritesCalls (keys ++ keys') := by
  intro n
  obtain ⟨ps, hps, hsettled, hcalls⟩ := hf (n + (g.stored .mysql).length)
  obtain ⟨qs, hqs, hsettled', hcalls'⟩ := hg n
  refine ⟨ps ++ qs, hps.append hqs, hsettled.append hsettled', ?_⟩
  rw [hsettled]
  exact List.rel_append hcalls hcalls'

theorem enclosed (delimiters : Delimiters) (hf : f.WritesCalls keys) :
    (Fragment.enclosed delimiters f).WritesCalls keys := by
  intro n
  obtain ⟨ps, hps, -, hcalls⟩ := hf n
  refine ⟨_, hps.enclosed delimiters, settled_enclosed delimiters ps, ?_⟩
  rwa [callsOf_enclosed]

/-- A lexeme that is no delimiter and no cipher. -/
theorem lexeme {t : Lexeme} (hinner : t.isInner = true)
    (hcipher : ∀ w ∈ t.word?, w ∉ cipherFunctions) :
    Outlines .mysql [t] (t.pieces .mysql) ∧ Settled (t.pieces .mysql)
      ∧ callsOf (t.pieces .mysql) = [] := by
  refine ⟨t.outlines_pieces hinner, ?_⟩
  cases t with
  | word w =>
      have hw := hcipher w rfl
      exact ⟨settled_token (by simpa [Piece.isCipher, Piece.word?] using hw), rfl⟩
  | space => exact ⟨settled_nil, rfl⟩
  | _ => exact ⟨settled_token rfl, rfl⟩

/-- A fragment that writes a single lexeme. -/
theorem of_lexeme (hf : ∀ n, ∃ t : Lexeme, f.lexemes .mysql n = [t] ∧ t.isInner = true
      ∧ ∀ w ∈ t.word?, w ∉ cipherFunctions) : f.WritesCalls [] := by
  intro n
  obtain ⟨t, hlexemes, hinner, hcipher⟩ := hf n
  obtain ⟨hps, hsettled, hcalls⟩ := lexeme hinner hcipher
  rw [← hlexemes] at hps
  exact ⟨_, hps, hsettled, hcalls ▸ .nil⟩

theorem led (v : Value) (hf : f.WritesCalls keys) : (Fragment.led v f).WritesCalls keys := by
  intro n
  obtain ⟨ps, hps, hsettled, hcalls⟩ := hf n
  obtain ⟨hslot, hsettled', hnone⟩ :=
    lexeme (t := .slot (n + (f.stored .mysql).length + 1)) rfl nofun
  refine ⟨_, hslot.append hps, hsettled'.append hsettled, ?_⟩
  rwa [hsettled', hnone]

end Fragment.WritesCalls

theorem paired_hashPieces {digest : Nat} (h : digest ∈ Cipher.digestSizes) :
    PairedPieces (hashPieces digest) := by
  have hdigits : (Atom.bare (Decimal.natText digest)).isInner = true := by
    revert digest
    decide
  exact ⟨rfl, ⟨rfl, ⟨rfl, rfl, hdigits, trivial⟩, trivial⟩, trivial⟩

theorem outlines_hashedSecret {key : Key} (h : key.digest ∈ Cipher.digestSizes) (n : Nat) :
    Outlines .mysql ((hashedSecret key).lexemes .mysql n) (hashPieces key.digest) :=
  ⟨rfl, paired_hashPieces h⟩

theorem outlines_comma : Outlines .mysql [.comma, .space] [.token .comma] :=
  ⟨rfl, rfl, trivial⟩

theorem callsOf_keyPieces (chained : Bool) (digest : Nat) :
    callsOf (keyPieces chained digest) = [] := by
  cases chained <;> rfl

/-- The arguments of a cipher: the operand and what the key adds. -/
theorem outlines_arguments {key : Key} (hvector : key.vector.isSome = key.mode.chained)
    (hdigest : key.digest ∈ Cipher.digestSizes) {f : Fragment} {n : Nat} {ps : List Piece}
    (hf : Outlines .mysql (f.lexemes .mysql n) ps) :
    Outlines .mysql
      ((commas ([f, hashedSecret key] ++ key.vector.toList.map Fragment.secret)).lexemes .mysql n)
      (ps ++ keyPieces key.mode.chained key.digest) := by
  have hhash := outlines_hashedSecret hdigest
  rw [← hvector]
  cases key.vector with
  | none =>
      have hpieces : ps ++ keyPieces false key.digest
          = ps ++ [.token .comma] ++ hashPieces key.digest := by
        simp [keyPieces]
      rw [Option.isSome_none, hpieces]
      exact (hf.append outlines_comma).append (hhash _)
  | some v =>
      have hpieces : ps ++ keyPieces true key.digest
          = ps ++ [.token .comma] ++ (hashPieces key.digest ++ [.token .comma]
            ++ [.token .question]) := by
        simp [keyPieces]
      have hslot : ∀ n, Outlines .mysql ((Fragment.secret v).lexemes .mysql n)
          [.token .question] := fun _ => ⟨rfl, rfl, trivial⟩
      rw [Option.isSome_some, hpieces]
      exact (hf.append outlines_comma).append (((hhash _).append outlines_comma).append (hslot _))

theorem Fragment.WritesCalls.cipher (direction : Direction) {key : Key} {f : Fragment}
    {keys : List Key} (hvector : key.vector.isSome = key.mode.chained)
    (hdigest : key.digest ∈ Cipher.digestSizes) (hf : f.WritesCalls keys) :
    (key.apply .mysql direction f).WritesCalls (key :: keys) := by
  intro n
  obtain ⟨ps, hps, hsettled, hcalls⟩ := hf n
  have harguments := (outlines_arguments hvector hdigest hps).enclosed .parens
  obtain ⟨function, hfunction, hlexemes⟩ : ∃ function ∈ cipherFunctions,
      (key.apply .mysql direction f).lexemes .mysql n
        = [.word function] ++ (Fragment.enclosed .parens
          (commas ([f, hashedSecret key] ++ key.vector.toList.map Fragment.secret))).lexemes
            .mysql n := by
    cases direction with
    | encrypt => exact ⟨"AES_ENCRYPT", by decide, rfl⟩
    | decrypt => exact ⟨"AES_DECRYPT", by decide, rfl⟩
  have hinner : ∀ w ∈ cipherFunctions, (Atom.bare w).isInner = true := by decide
  have hname : Outlines .mysql [.word function] [.token (.bare function)] :=
    ⟨rfl, hinner function hfunction, trivial⟩
  refine ⟨_, hlexemes ▸ hname.append harguments, settled_call hfunction _, ?_⟩
  rw [callsOf_call hfunction, hsettled, callsOf_keyPieces, List.append_nil]
  exact .cons ⟨ps, rfl⟩ hcalls

/-- **A call is written for each key of a fragment, and no other.** -/
theorem Fragment.Ciphers.writesCalls {model : Option Settings} {f : Fragment} {keys : List Key}
    (h : f.Ciphers model keys) (hpaired : f.Paired) : f.WritesCalls keys := by
  induction h with
  | empty => exact fun _ => ⟨[], .nil, settled_nil, .nil⟩
  | fail e => exact fun _ => ⟨[], .nil, settled_nil, .nil⟩
  | @token t ht =>
      refine .of_lexeme fun n => ⟨t, rfl, hpaired, ?_⟩
      cases t with
      | word w =>
          rintro _ ⟨⟩
          simpa [Lexeme.isOrdinary] using ht
      | _ => rintro _ ⟨⟩
  | name | value | path | outputName =>
      refine .of_lexeme fun n => ⟨_, rfl, rfl, ?_⟩
      rintro _ ⟨⟩
  | enclosed delimiters _ ih => exact (ih hpaired).enclosed delimiters
  | append _ _ ihf ihg => exact (ihf hpaired.1).append (ihg hpaired.2)
  | crossed _ _ ihf ihg => exact (ihf hpaired.1).crossed (ihg hpaired.2)
  | led v _ ih => exact (ih hpaired).led v
  | @cipher direction key f keys hkey _ ih =>
      obtain ⟨column, call, query, hresolve⟩ := hkey
      obtain ⟨hvector, hdigest⟩ := Cipher.Settings.complete_ok hresolve
      have harguments :
          (commas (f :: hashedSecret key :: key.vector.toList.map Fragment.secret)).Paired :=
        hpaired.2
      exact (ih harguments.1.1).cipher direction hvector hdigest

end QueryTree
