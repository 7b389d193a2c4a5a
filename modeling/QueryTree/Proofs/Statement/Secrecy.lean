import QueryTree.Proofs.Statement.Recast

/-!
# Secrets stay out of the text

Two descriptions that differ in the contents of secrets and initial vectors only compile alike, up
to the values that are bound as key material. Where nothing is decrypted or encrypted, settings do
not matter at all.

* `Fragment.Alike`: fragments that amount to the same up to key material.
* `respected_mask`, `respected_bare`: what blotting out and dropping settings does to fragments.
* `Json.Inactive`: nothing is decrypted or encrypted.
* `Config.SameUpToKeys`: statements that differ in key material only.
* `Config.statement_of_masked`: the theorem.
-/

namespace QueryTree

open Fragment (word literal tokens commas parens call)
open Cipher (Settings Key)
open Reading (Meets)

/-! ## Fragments up to key material -/

/-- Values that are the same unless they are key material. -/
def Stored.Agree (a b : Stored) : Prop :=
  a.isKey = b.isKey ∧ (a.isKey = false → a.value = b.value)

theorem Stored.Agree.refl (a : Stored) : a.Agree a :=
  ⟨rfl, fun _ => rfl⟩

theorem Stored.Agree.symm {a b : Stored} (h : a.Agree b) : b.Agree a :=
  ⟨h.1.symm, fun hb => (h.2 (h.1.trans hb)).symm⟩

theorem Stored.Agree.trans {a b c : Stored} (hab : a.Agree b) (hbc : b.Agree c) : a.Agree c :=
  ⟨hab.1.trans hbc.1, fun ha => (hab.2 ha).trans (hbc.2 (hab.1.symm.trans ha))⟩

theorem forall₂_agree_trans {as bs cs : List Stored} (hab : List.Forall₂ Stored.Agree as bs)
    (hbc : List.Forall₂ Stored.Agree bs cs) : List.Forall₂ Stored.Agree as cs := by
  induction hab generalizing cs with
  | nil =>
      cases hbc
      exact .nil
  | cons hab _ ih =>
      cases hbc with
      | cons hbc hrest => exact .cons (hab.trans hbc) (ih hrest)

/-- Fragments that stop at the same errors, write the same and store the same up to key
material. -/
structure Fragment.Alike (dialect : Dialect) (f g : Fragment) : Prop where
  hurdles_eq : f.hurdles = g.hurdles
  lexemes_eq (n : Nat) : f.lexemes dialect n = g.lexemes dialect n
  stored : List.Forall₂ Stored.Agree (f.stored dialect) (g.stored dialect)

namespace Fragment.Alike

variable {dialect : Dialect} {f f' g g' : Fragment}

theorem refl (f : Fragment) : f.Alike dialect f :=
  ⟨rfl, fun _ => rfl, List.forall₂_same.2 fun a _ => .refl a⟩

theorem symm (h : f.Alike dialect g) : g.Alike dialect f :=
  ⟨h.1.symm, fun n => (h.2 n).symm, h.3.flip.imp fun _ _ => Stored.Agree.symm⟩

theorem trans {k : Fragment} (hfg : f.Alike dialect g) (hgk : g.Alike dialect k) :
    f.Alike dialect k :=
  ⟨hfg.1.trans hgk.1, fun n => (hfg.2 n).trans (hgk.2 n),
    forall₂_agree_trans hfg.3 hgk.3⟩

theorem secret (s t : String) : (Fragment.secret s).Alike dialect (.secret t) :=
  ⟨rfl, fun _ => rfl, .cons ⟨rfl, nofun⟩ .nil⟩

theorem enclosed (delimiters : Delimiters) (h : f.Alike dialect g) :
    (Fragment.enclosed delimiters f).Alike dialect (.enclosed delimiters g) :=
  ⟨h.1, fun n => by rw [lexemes, lexemes, h.2], h.3⟩

theorem append (hf : f.Alike dialect f') (hg : g.Alike dialect g') :
    (f ++ g).Alike dialect (f' ++ g') where
  hurdles_eq := by rw [hurdles_append, hurdles_append, hf.1, hg.1]
  lexemes_eq n := by
    change f.lexemes dialect n ++ _ = f'.lexemes dialect n ++ _
    rw [hf.2, hg.2, hf.3.length_eq]
  stored := List.rel_append hf.3 hg.3

theorem crossed (hf : f.Alike dialect f') (hg : g.Alike dialect g') :
    (Fragment.crossed f g).Alike dialect (.crossed f' g') where
  hurdles_eq := by rw [hurdles, hurdles, hf.1, hg.1]
  lexemes_eq n := by rw [lexemes, lexemes, hf.2, hg.2, hg.3.length_eq]
  stored := List.rel_append hg.3 hf.3

theorem led (v : Value) (h : f.Alike dialect g) :
    (Fragment.led v f).Alike dialect (.led v g) where
  hurdles_eq := h.1
  lexemes_eq n := by rw [lexemes, lexemes, h.2, h.3.length_eq]
  stored := .cons (.refl _) h.3

end Fragment.Alike

theorem Fragment.fullCongruence_alike (dialect : Dialect) :
    FullCongruence (Fragment.Alike dialect) where
  empty := .refl _
  token _ := .refl _
  value _ := .refl _
  path _ := .refl _
  fail _ := .refl _
  enclosed delimiters _ _ := .enclosed delimiters
  append := .append
  name _ := .refl _
  outputName _ := .refl _
  crossed := .crossed
  led v _ _ := .led v

/-! ## Keys -/

section Keys

variable {dialect : Dialect}

/-- A key without the contents of its secret and its vector. -/
def Cipher.Key.masked (key : Key) : Key :=
  { key with secret := "", vector := key.vector.map fun _ => "" }

theorem orElse_masked (upper lower : Settings) :
    upper.masked.orElse lower.masked = (upper.orElse lower).masked := by
  obtain ⟨mode, secret, vector, digest⟩ := upper
  cases secret <;> cases vector <;> rfl

theorem merge_masked (levels : List (Option Settings)) :
    Cipher.merge (levels.map (Option.map Settings.masked)) = (Cipher.merge levels).masked := by
  have hfold : ∀ (levels : List (Option Settings)) (settings : Settings),
      ((levels.map (Option.map Settings.masked)).filterMap id).foldl Settings.orElse
          settings.masked
        = ((levels.filterMap id).foldl Settings.orElse settings).masked := by
    intro levels
    induction levels with
    | nil => exact fun _ => rfl
    | cons level levels ih =>
        intro settings
        cases level with
        | none => exact ih settings
        | some lower =>
            have hrest := ih (settings.orElse lower)
            rw [← orElse_masked] at hrest
            exact hrest
  exact hfold levels .unset

theorem vectorFor_masked (mode : Cipher.Mode) (vector : Option String) :
    Cipher.vectorFor mode (vector.map fun _ => "")
      = (Cipher.vectorFor mode vector).map (Option.map fun _ => "") := by
  unfold Cipher.vectorFor
  split
  · cases vector <;> rfl
  · rfl

theorem complete_masked (settings : Settings) :
    settings.masked.complete = settings.complete.map Key.masked := by
  obtain ⟨mode, secret, vector, digest⟩ := settings
  cases secret with
  | none => rfl
  | some secret =>
      change ((Cipher.vectorFor (mode.getD default) (vector.map fun _ => "")) >>= fun vector => _)
        = ((Cipher.vectorFor (mode.getD default) vector) >>= fun vector => _).map Key.masked
      rw [vectorFor_masked]
      cases Cipher.vectorFor (mode.getD default) vector with
      | error e => rfl
      | ok vector =>
          change (if Cipher.digestSizes.contains (digest.getD Cipher.defaultDigest) then _ else _)
            = Except.map _
              (if Cipher.digestSizes.contains (digest.getD Cipher.defaultDigest) then _ else _)
          split <;> rfl

/-- Settings that are blotted out at all levels resolve to the key, blotted out. -/
theorem resolve_masked (scope : Scope) (column : Settings) :
    (scope.recast .mask).resolve (some column.masked)
      = (scope.resolve (some column)).map Key.masked := by
  have hmerge := merge_masked
    [some column, scope.layers.call, scope.layers.query, scope.layers.model]
  rw [Scope.resolve, Scope.resolve, Cipher.resolve, Cipher.resolve, ← complete_masked, ← hmerge]
  rfl

theorem Fragment.Alike.call (function : String) {fs gs : List Fragment}
    (h : List.Forall₂ (Fragment.Alike dialect) fs gs) :
    (Fragment.call function fs).Alike dialect (Fragment.call function gs) :=
  .append (.refl _)
    ((fullCongruence_alike dialect).parens ((fullCongruence_alike dialect).commas h))

theorem alike_hashedSecret (key : Key) :
    (hashedSecret key).Alike dialect (hashedSecret key.masked) :=
  .append (.refl _) (.call "UNHEX" (.cons (.call "SHA2"
    (.cons (.secret _ _) (.cons (.refl _) .nil))) .nil))

/-- Encryption and decryption write the same and bind other key material. -/
theorem alike_apply (key : Key) (d : Dialect) (direction : Direction) {f g : Fragment}
    (h : f.Alike dialect g) :
    (key.apply d direction f).Alike dialect (key.masked.apply d direction g) := by
  have hfull := Fragment.fullCongruence_alike dialect
  cases d with
  | mysql =>
      have hvector : List.Forall₂ (Fragment.Alike dialect)
          (key.vector.toList.map Fragment.secret) (key.masked.vector.toList.map .secret) := by
        cases hv : key.vector with
        | none => simp [Key.masked, hv]
        | some v => simpa [Key.masked, hv] using .secret _ _
      exact .call _ (.cons h (.cons (alike_hashedSecret key) hvector))
  | postgresql =>
      cases direction <;>
        exact .call _ (.cons (hfull.cast (by decide) h) (.cons (.secret _ _)
          (.cons (.refl _) .nil)))
  | sqlite => exact .append h (.refl _)

/-- Blotting settings out changes fragments in their key material only. -/
theorem respected_mask (dialect : Dialect) (model : Option Settings) :
    Recasting.keep.Respected .mask dialect model (Fragment.Alike dialect) where
  toFullCongruence := Fragment.fullCongruence_alike dialect
  pass {scope} _ direction settings f g hfg := by
    have hkeep : scope.recast .keep = scope := by
      obtain ⟨d, alias?, known, ⟨call, query, model⟩⟩ := scope
      simp [Scope.recast, Layers.recast, Recasting.aroundOf_keep]
    change ((scope.recast .keep).cipher direction settings f).Alike dialect
      ((scope.recast .mask).cipher direction settings.masked g)
    rw [hkeep, Scope.cipher, Scope.cipher, resolve_masked]
    cases scope.resolve (some settings) with
    | error e => exact .append hfg (.refl _)
    | ok key => exact alike_apply key scope.dialect direction hfg

/-- Without ciphers, dropping settings changes nothing. -/
theorem respected_bare (dialect : Dialect) (model : Option Settings) :
    Recasting.inactive.Respected .bare dialect model Eq where
  empty := rfl
  token _ := rfl
  value _ := rfl
  path _ := rfl
  fail _ := rfl
  enclosed _ _ _ := congrArg _
  append := congrArg₂ _
  name _ := rfl
  outputName _ := rfl
  crossed := congrArg₂ _
  led _ _ _ := congrArg _
  pass _ _ _ _ _ := id

end Keys

/-! ## Statements -/

/-- Nothing is switched off in a description in which nothing is decrypted or encrypted. -/
def Json.Inactive (json : Json) : Prop :=
  json.recastStatement .inactive = json

-- Among options the key holds settings; in a condition it is a column like any other.
example :
    (Json.obj [("table", .str "t"), ("encryption", .obj [("secret", .str "s"), ("sha", .null)]),
        ("where", .obj [("encryption", .obj [("secret", .str "s")])])]).recastStatement .mask
      = .obj [("table", .str "t"), ("encryption", .obj [("secret", .str ""), ("sha", .null)]),
        ("where", .obj [("encryption", .obj [("secret", .str "s")])])] := rfl

/-- The values of a statement in the order of the list, and which of them are key material. -/
def Config.stored (config : Config) (kind : StatementKind) (json : Json) : List Stored :=
  match config.prepared kind json with
  | .ok (f, _) => f.stored config.dialect
  | .error _ => []

/-- The same error, or statements that are the same up to the values of key material. -/
def Config.SameUpToKeys (config config' : Config) (kind : StatementKind) (json json' : Json) :
    Prop :=
  (∃ e, config.statement kind json = .error e ∧ config'.statement kind json' = .error e)
    ∨ ∃ c c', config.statement kind json = .ok c ∧ config'.statement kind json' = .ok c'
      ∧ c.sql = c'.sql ∧ c.preamble = c'.preamble ∧ c.omissions = c'.omissions
      ∧ c.values = (config.stored kind json).map Stored.value
      ∧ c'.values = (config'.stored kind json').map Stored.value
      ∧ List.Forall₂ Stored.Agree (config.stored kind json) (config'.stored kind json')

/-- Statements whose fragments are alike are the same up to key material. -/
theorem Config.sameUpToKeys_of_meets {config config' : Config}
    (hdialect : config.dialect = config'.dialect) {kind : StatementKind} {json json' : Json}
    (h : Meets (Fragment.Alike config.dialect) (config.prepared kind json)
      (config'.prepared kind json')) :
    config.SameUpToKeys config' kind json json' := by
  unfold Config.SameUpToKeys Config.stored
  rw [Config.statement_eq, Config.statement_eq]
  generalize config.prepared kind json = x, config'.prepared kind json' = y at h
  cases h with
  | error e => exact .inl ⟨e, rfl, rfl⟩
  | @ok f g s hfg =>
      simp only [Except.bind, hfg.hurdles_eq]
      cases hpass : Hurdle.passAll none g.hurdles with
      | error e => exact .inl ⟨e, rfl, rfl⟩
      | ok mode =>
          have hsql : render config.dialect (f.lexemes config.dialect 0)
              = render config'.dialect (g.lexemes config'.dialect 0) := by
            rw [hfg.lexemes_eq, hdialect]
          refine .inr ⟨_, _, rfl, rfl, hsql, rfl, rfl, rfl, rfl, ?_⟩
          rw [← hdialect]
          exact hfg.stored

/-- **Secrets stay out of the text.** Descriptions and models that differ in the contents of
secrets and initial vectors only compile to the same error, or to statements that differ in the
values bound as key material only. Where nothing is decrypted or encrypted, settings do not matter
at all. -/
theorem Config.statement_of_masked (config config' : Config)
    (hdialect : config.dialect = config'.dialect) (hsafe : config.safeMode = config'.safeMode)
    (kind : StatementKind) (json json' : Json) :
    (config.recast .mask = config'.recast .mask →
        json.recastStatement .mask = json'.recastStatement .mask →
        config.SameUpToKeys config' kind json json')
      ∧ (json.Inactive → json'.Inactive →
        json.recastStatement .bare = json'.recastStatement .bare →
        config.statement kind json = config'.statement kind json') := by
  constructor
  · intro hmodel hmask
    have hleft := config.meets_prepared Policy.realizes_keep Policy.realizes_mask
      (respected_mask _ _) kind json
    have hright := config'.meets_prepared Policy.realizes_keep Policy.realizes_mask
      (respected_mask _ _) kind json'
    rw [Config.recast_keep, Json.recastStatement_keep] at hleft hright
    rw [hmodel, hmask] at hleft
    rw [← hdialect] at hright
    refine Config.sameUpToKeys_of_meets hdialect (hleft.trans hright.symm fun _ _ _ hfg hgk => ?_)
    exact hfg.trans hgk.symm
  · intro hjson hjson' hbare
    have hleft := config.meets_prepared Policy.realizes_inactive Policy.realizes_bare
      (respected_bare _ _) kind json
    have hright := config'.meets_prepared Policy.realizes_inactive Policy.realizes_bare
      (respected_bare _ _) kind json'
    have hconfig : config.recast .bare = config'.recast .bare := by
      simp [Config.recast, Recasting.bare, Recasting.aroundOf, hdialect, hsafe]
    rw [Config.recast_inactive, hjson, hconfig, hbare] at hleft
    rw [Config.recast_inactive, hjson'] at hright
    have hprepared := hleft.eq.trans hright.eq.symm
    have houtcome : config.outcome = config'.outcome := by
      unfold Config.outcome
      rw [hdialect]
    rw [Config.statement_eq, Config.statement_eq, hprepared, houtcome]

/-- A column read under a secret of the query, decrypted or not. -/
def keyedQuery (secret : String) (decrypt : Bool) : Json :=
  .obj [("table", .str "t"),
    ("select", .arr [.obj [("str", .obj [("value", .str "a"), ("decrypt", .bool decrypt)])]]),
    ("encryption", .obj [("secret", .str secret)])]

/-- A model with an initial vector. -/
def keyedModel (vector : String) : Config :=
  { encryption := some { vector := some vector } }

theorem Config.statement_of_masked_keyed :
    (keyedModel "u").SameUpToKeys (keyedModel "v") .select (keyedQuery "s" true)
        (keyedQuery "t" true)
      ∧ ((keyedModel "u").statement .select (keyedQuery "s" true)).map Compiled.values
        = .ok [.identifier "a", .text "s", .text "u", .identifier "t"]
      ∧ (keyedModel "u").statement .select (keyedQuery "s" false)
        = (keyedModel "v").statement .select (keyedQuery "t" false) := by
  refine ⟨?_, ?_, ?_⟩
  · exact (Config.statement_of_masked (keyedModel "u") (keyedModel "v") rfl rfl .select
      (keyedQuery "s" true) (keyedQuery "t" true)).1 rfl rfl
  · rfl
  · exact (Config.statement_of_masked (keyedModel "u") (keyedModel "v") rfl rfl .select
      (keyedQuery "s" false) (keyedQuery "t" false)).2 rfl rfl rfl

end QueryTree
