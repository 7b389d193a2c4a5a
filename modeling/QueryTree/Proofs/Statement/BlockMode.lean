import QueryTree.Proofs.Cipher.Calls
import QueryTree.Proofs.Statement.Recast

/-!
# One block mode for a statement

What has to run before a statement puts a block mode into force, and it is the mode of every cipher
that the statement calls.

* `Hurdle.passAll_ok`, `Hurdle.passAll_error`: which mode is in force after all hurdles, and which
  of them cannot be got over.
* `Config.exists_ciphers`: the keys of a statement.
* `Config.preamble_of_statement`: the theorem.
-/

namespace QueryTree

open Cipher (Settings Key)

/-! ## Modes that are asked for -/

/-- The name of a mode stands for this mode and no other. -/
theorem Cipher.Mode.ofName?_name (m : Cipher.Mode) : ofName? Cipher.Mode m.name = some m := by
  obtain ⟨size, chained⟩ := m
  cases size <;> cases chained <;> rfl

namespace Hurdle

/-- A mode is put into force, or another one is. -/
theorem pass_mode (m : Cipher.Mode) (mode : Option Cipher.Mode) :
    ((∀ current ∈ mode, current = m) ∧ (Hurdle.mode m).pass mode = .ok (some m))
      ∨ ∃ current, current ≠ m
        ∧ (Hurdle.mode m).pass mode
          = .error (.invalid "encryption.mode" (.modeConflict m current)) := by
  cases mode with
  | none => exact .inl ⟨nofun, rfl⟩
  | some current =>
      by_cases hm : current = m
      · refine .inl ⟨?_, if_pos hm⟩
        rintro _ ⟨⟩
        exact hm
      · exact .inr ⟨current, hm, if_neg hm⟩

/-- The mode in force at the end is the one at the beginning and every one that is asked for. -/
theorem passAll_ok {mode mode' : Option Cipher.Mode} {hs : List Hurdle}
    (h : passAll mode hs = .ok mode') :
    (∀ m ∈ mode, mode' = some m) ∧ (∀ m, .mode m ∈ hs → mode' = some m)
      ∧ ∀ m, mode' = some m → mode = some m ∨ .mode m ∈ hs := by
  induction hs generalizing mode with
  | nil =>
      cases h
      exact ⟨fun m hm => hm, nofun, fun m hm => .inl hm⟩
  | cons hurdle hs ih =>
      rw [passAll_cons] at h
      cases hurdle with
      | error e => cases h
      | mode m =>
          rcases pass_mode m mode with ⟨hmode, hpass⟩ | ⟨current, -, hpass⟩
          · rw [hpass] at h
            obtain ⟨hstart, hasked, hend⟩ := ih h
            have hm : mode' = some m := hstart m rfl
            refine ⟨fun k hk => hmode k hk ▸ hm, fun k hk => ?_, fun k hk => .inr ?_⟩
            · obtain hk | hk := List.mem_cons.1 hk
              · cases hk
                exact hm
              · exact hasked k hk
            · rw [hm] at hk
              cases hk
              exact List.mem_cons_self
          · rw [hpass] at h
            cases h

/-- What is not got over: a second mode, or an error before which only one mode is asked for. -/
theorem passAll_error {mode : Option Cipher.Mode} {hs : List Hurdle} {e : CompileError}
    (h : passAll mode hs = .error e) :
    (∃ m m', m ≠ m' ∧ e = .invalid "encryption.mode" (.modeConflict m m'))
      ∨ ∃ before after m, hs = before ++ .error e :: after ∧ (∀ k ∈ mode, k = m)
        ∧ ∀ hurdle ∈ before, hurdle = .mode m := by
  induction hs generalizing mode with
  | nil => cases h
  | cons hurdle hs ih =>
      rw [passAll_cons] at h
      cases hurdle with
      | error e' =>
          cases h
          refine .inr ⟨[], hs, mode.getD default, rfl, ?_, nofun⟩
          rintro k rfl
          rfl
      | mode m =>
          rcases pass_mode m mode with ⟨hmode, hpass⟩ | ⟨current, hne, hpass⟩
          · rw [hpass] at h
            rcases ih h with hconflict | ⟨before, after, k, rfl, hk, hbefore⟩
            · exact .inl hconflict
            · obtain rfl := hk m rfl
              refine .inr ⟨.mode m :: before, after, m, rfl, hmode, fun hurdle hmem => ?_⟩
              obtain rfl | hmem := List.mem_cons.1 hmem
              · rfl
              · exact hbefore hurdle hmem
          · rw [hpass] at h
            cases h
            exact .inl ⟨m, current, hne.symm, rfl⟩

end Hurdle

/-- The mode that a statement ends up with is that of each of its keys, and there is none exactly
if there is no key. -/
theorem Fragment.Ciphers.mode_of_passAll {model : Option Settings} {f : Fragment}
    {keys : List Key} (h : f.Ciphers model keys) {mode : Option Cipher.Mode}
    (hpass : Hurdle.passAll none f.hurdles = .ok mode) :
    (∀ key ∈ keys, mode = some key.mode) ∧ (mode = none ↔ keys = []) := by
  obtain ⟨-, hasked, hend⟩ := Hurdle.passAll_ok hpass
  have hmode : ∀ key ∈ keys, mode = some key.mode := fun key hkey =>
    hasked key.mode ((h.mode_mem_hurdles key.mode).2 ⟨key, hkey, rfl⟩)
  refine ⟨hmode, fun hnone => ?_, fun hnil => ?_⟩
  · refine List.eq_nil_iff_forall_not_mem.2 fun key hkey => ?_
    cases hnone.symm.trans (hmode key hkey)
  · cases mode with
    | none => rfl
    | some m =>
        obtain hm | hm := hend m rfl
        · cases hm
        · obtain ⟨key, hkey, -⟩ := (h.mode_mem_hurdles m).1 hm
          rw [hnil] at hkey
          cases hkey

/-! ## Statements -/

namespace Config

variable {config : Config} {kind : StatementKind} {json : Json}

theorem preamble_eq_nil (config : Config) (f : Fragment) (omissions : List Omission)
    (mode : Option Cipher.Mode) :
    (config.outcome f omissions mode).preamble = [] ↔ mode = none := by
  cases mode <;> simp [outcome]

/-- A compiled statement is the outcome of its fragment. -/
theorem prepared_of_statement {c : Compiled} (h : config.statement kind json = .ok c) :
    ∃ f omissions mode, config.prepared kind json = .ok (f, omissions)
      ∧ Hurdle.passAll none f.hurdles = .ok mode ∧ c = config.outcome f omissions mode := by
  rw [statement_eq] at h
  cases hprepared : config.prepared kind json with
  | error e =>
      rw [hprepared] at h
      cases h
  | ok r =>
      obtain ⟨f, omissions⟩ := r
      simp only [hprepared, Except.bind] at h
      cases hpass : Hurdle.passAll none f.hurdles with
      | error e =>
          rw [hpass] at h
          cases h
      | ok mode =>
          rw [hpass] at h
          cases h
          exact ⟨f, omissions, mode, rfl, hpass, rfl⟩

/-- The fragment of a statement is a phrase. -/
theorem phrase_of_prepared {f : Fragment} {omissions : List Omission}
    (h : config.prepared kind json = .ok (f, omissions)) : Phrase config.dialect f := by
  have hd : config.scope.dialect = config.dialect := rfl
  cases kind with
  | select =>
      cases hread : readSelectStatement json [] with
      | error e =>
          rw [prepared, hread] at h
          cases h
      | ok r =>
          rw [prepared, hread] at h
          cases h
          exact r.1.phrase_fragment hd (by simp)
  | write =>
      cases hread : readWrite json [] with
      | error e =>
          rw [prepared, hread] at h
          cases h
      | ok r =>
          rw [prepared, hread] at h
          cases h
          exact r.1.phrase_fragment hd
  | delete =>
      cases hread : readDelete json [] with
      | error e =>
          rw [prepared, hread] at h
          cases h
      | ok r =>
          rw [prepared, hread] at h
          cases h
          exact r.1.phrase_fragment config.safeMode hd

/-- The text of a statement on the dialect with block modes, with its calls. -/
theorem exists_calls (hd : config.dialect = .mysql) {f : Fragment} {keys : List Key}
    (hphrase : Phrase config.dialect f) (hciphers : f.Ciphers config.encryption keys)
    {mode : Option Cipher.Mode} (hpass : Hurdle.passAll none f.hurdles = .ok mode) :
    ∃ ps, pieces? .mysql (render config.dialect (f.lexemes config.dialect 0)) = some ps
      ∧ List.Forall₂ Key.IsCall keys (callsOf ps) := by
  rcases f.run_or_stop config.dialect .empty with ⟨_, -, hrun⟩ | ⟨e, hstop, -⟩
  · have hpaired := hphrase.paired (Fragment.halts_eq_false_of_run hrun)
    obtain ⟨ps, hps, -, hcalls⟩ := hciphers.writesCalls hpaired 0
    have htidy := hphrase.tidy hrun
    rw [hd] at htidy ⊢
    exact ⟨ps, hps.pieces_eq htidy, hcalls⟩
  · cases hpass.symm.trans hstop

/-- **The fragment of a statement has its keys.** -/
theorem exists_ciphers (hd : config.dialect = .mysql) {f : Fragment} {omissions : List Omission}
    (h : config.prepared kind json = .ok (f, omissions)) :
    ∃ keys, f.Ciphers config.encryption keys := by
  have hmeets := config.meets_prepared Policy.realizes_keep Policy.realizes_keep
    (hd ▸ respected_ciphers config.encryption) kind json
  rw [recast_keep, Json.recastStatement_keep, h] at hmeets
  cases hmeets with
  | ok _ hf => exact hf

/-- **One block mode for a statement.** On the dialect that has block modes, a statement that calls
no cipher needs nothing to run first. Any other needs one statement that sets the session to a mode,
which is bound by its name, and every cipher that it calls, at any depth, is called with a key that
settings resolve to under this mode; so that all calls have an initial vector or none has. A
statement with keys of two modes fails for that reason, unless an error comes before it asks for a
second mode. On other dialects nothing has to run first. -/
theorem preamble_of_statement (config : Config) (kind : StatementKind) (json : Json) :
    (config.dialect = .mysql → ∀ c, config.statement kind json = .ok c →
      ∃ f omissions keys ps, config.prepared kind json = .ok (f, omissions)
        ∧ f.Ciphers config.encryption keys
        ∧ pieces? .mysql c.sql = some ps
        ∧ List.Forall₂ Key.IsCall keys (callsOf ps)
        ∧ (∀ key ∈ keys, Cipher.Resolved config.encryption key)
        ∧ (c.preamble = [] ↔ callsOf ps = [])
        ∧ (callsOf ps ≠ [] → ∃ m : Cipher.Mode,
          c.preamble = [⟨"SET SESSION block_encryption_mode = ?", [.text m.name]⟩]
            ∧ ofName? Cipher.Mode m.name = some m ∧ ∀ key ∈ keys, key.mode = m))
    ∧ (config.dialect = .mysql → ∀ f omissions,
      config.prepared kind json = .ok (f, omissions) →
      ∃ keys, f.Ciphers config.encryption keys
        ∧ ∀ key ∈ keys, ∀ key' ∈ keys, key.mode ≠ key'.mode →
          (∃ m m', m ≠ m' ∧ config.statement kind json
              = .error (.invalid "encryption.mode" (.modeConflict m m')))
            ∨ ∃ before e after m, f.hurdles = before ++ .error e :: after
              ∧ (∀ hurdle ∈ before, hurdle = .mode m) ∧ config.statement kind json = .error e)
    ∧ (config.dialect ≠ .mysql → ∀ c, config.statement kind json = .ok c → c.preamble = []) := by
  refine ⟨fun hd c hc => ?_, fun hd f omissions hprepared => ?_, fun hd c hc => ?_⟩
  · obtain ⟨f, omissions, mode, hprepared, hpass, rfl⟩ := prepared_of_statement hc
    obtain ⟨keys, hciphers⟩ := exists_ciphers hd hprepared
    obtain ⟨ps, hps, hcalls⟩ := exists_calls hd (phrase_of_prepared hprepared) hciphers hpass
    have hmode := hciphers.mode_of_passAll hpass
    refine ⟨f, omissions, keys, ps, hprepared, hciphers, hps, hcalls, hciphers.resolved, ?_,
      fun hne => ?_⟩
    · rw [preamble_eq_nil, hmode.2, ← List.length_eq_zero_iff, hcalls.length_eq,
        List.length_eq_zero_iff]
    · obtain ⟨key, hkey⟩ : ∃ key, key ∈ keys := by
        rw [← List.length_pos_iff, ← hcalls.length_eq] at hne
        exact List.exists_mem_of_length_pos hne
      refine ⟨key.mode, by rw [outcome, hmode.1 key hkey]; rfl, key.mode.ofName?_name,
        fun key' hkey' => ?_⟩
      exact Option.some.inj ((hmode.1 key' hkey').symm.trans (hmode.1 key hkey))
  · obtain ⟨keys, hciphers⟩ := exists_ciphers hd hprepared
    refine ⟨keys, hciphers, fun key hkey key' hkey' hne => ?_⟩
    have hstatement : config.statement kind json
        = (Hurdle.passAll none f.hurdles).map (config.outcome f omissions) := by
      rw [statement_eq, hprepared]
      rfl
    cases hpass : Hurdle.passAll none f.hurdles with
    | ok mode =>
        have hmode := (hciphers.mode_of_passAll hpass).1
        exact absurd (Option.some.inj ((hmode key hkey).symm.trans (hmode key' hkey'))) hne
    | error e =>
        rw [hstatement, hpass]
        rcases Hurdle.passAll_error hpass with ⟨m, m', hm, rfl⟩ | ⟨before, after, m, heq, -, hmodes⟩
        · exact .inl ⟨m, m', hm, rfl⟩
        · exact .inr ⟨before, e, after, m, heq, hmodes, rfl⟩
  · obtain ⟨f, omissions, mode, hprepared, hpass, rfl⟩ := prepared_of_statement hc
    have hplain : f.Plain config.dialect := (phrase_of_prepared hprepared).plain
    cases mode with
    | none => rfl
    | some m =>
        obtain hm | hm := (Hurdle.passAll_ok hpass).2.2 m rfl
        · cases hm
        · exact absurd hm (hplain.mode_not_mem hd m)

/-- A query that decrypts a column under one mode, and inside it a query that decrypts another
column under another mode or under the same. -/
def nestedCiphers (outer inner : String) : Json :=
  .obj [("table", .str "t"),
    ("select", .arr [
      .obj [("str", .obj [("value", .str "a"),
        ("decrypt", .obj [("mode", .str outer), ("secret", .str "k"), ("iv", .str "v")])])],
      .obj [("refer", .obj [("table", .str "u"),
        ("select", .arr [.obj [("str", .obj [("value", .str "b"),
          ("decrypt", .obj [("mode", .str inner), ("secret", .str "l")])])]])])]])]

/-- Both calls are under the mode that the session is set to; two modes do not go together, and
another dialect needs neither. -/
theorem preamble_of_statement_nested :
    (∃ c keys ps, ({} : Config).statement .select (nestedCiphers "aes-128-ecb" "aes-128-ecb")
          = .ok c
        ∧ pieces? .mysql c.sql = some ps ∧ List.Forall₂ Key.IsCall keys (callsOf ps)
        ∧ c.preamble = [⟨"SET SESSION block_encryption_mode = ?", [.text "aes-128-ecb"]⟩]
        ∧ ∀ key ∈ keys, key.mode = ⟨.bits128, false⟩)
      ∧ ({} : Config).statement .select (nestedCiphers "aes-128-cbc" "aes-128-ecb")
        = .error (.invalid "encryption.mode"
          (.modeConflict ⟨.bits128, false⟩ ⟨.bits128, true⟩))
      ∧ ∃ c, ({ dialect := .postgresql } : Config).statement .select
          (nestedCiphers "aes-128-cbc" "aes-128-ecb") = .ok c ∧ c.preamble = [] := by
  refine ⟨?_, rfl, ?_⟩
  · obtain ⟨c, hc, hpreamble⟩ : ∃ c,
        ({} : Config).statement .select (nestedCiphers "aes-128-ecb" "aes-128-ecb") = .ok c
          ∧ c.preamble = [⟨"SET SESSION block_encryption_mode = ?", [.text "aes-128-ecb"]⟩] :=
      ⟨_, rfl, rfl⟩
    obtain ⟨-, -, keys, ps, -, -, hps, hcalls, -, hnil, hmode⟩ :=
      (preamble_of_statement {} .select _).1 rfl c hc
    have hne : callsOf ps ≠ [] := by
      rw [Ne, ← hnil, hpreamble]
      exact List.cons_ne_nil _ _
    obtain ⟨m, hm, hread, hkeys⟩ := hmode hne
    have hname : m.name = "aes-128-ecb" := by simpa [hpreamble, eq_comm] using hm
    have hsetting : m = ⟨.bits128, false⟩ := by
      rw [hname] at hread
      exact (Option.some.inj hread).symm
    exact ⟨c, keys, ps, hc, hps, hcalls, hpreamble, hsetting ▸ hkeys⟩
  · obtain ⟨c, hc⟩ : ∃ c, ({ dialect := .postgresql } : Config).statement .select
        (nestedCiphers "aes-128-cbc" "aes-128-ecb") = .ok c := ⟨_, rfl⟩
    exact ⟨c, hc, (preamble_of_statement { dialect := .postgresql } .select _).2.2 nofun c hc⟩

end Config

end QueryTree
