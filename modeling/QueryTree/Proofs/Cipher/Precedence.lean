import QueryTree.Cipher.Settings

/-!
# Precedence of settings

Settings are merged field by field, and the first level that sets a field wins.

* `Field`, `Settings.get`: the fields of settings, and what settings hold in them.
* `winner`: what the first level that sets a field holds in it.
* `get_merge`: merging levels is taking the winner of each field.
* `Resolution`: what levels resolve to, said of the winners alone.
* `resolve_of_winners`: settings can be merged in any grouping, levels resolve to what their
  winners say, and below a level that sets a field the field does not matter.
-/

namespace QueryTree.Cipher

/-! ## Fields -/

/-- The fields of settings. -/
inductive Field where
  | mode
  | secret
  | vector
  | digest
deriving DecidableEq, Repr

/-- What a field holds. -/
abbrev Field.Value : Field → Type
  | .mode => Mode
  | .secret => String
  | .vector => String
  | .digest => Nat

namespace Settings

/-- What settings hold in a field, if they set it. -/
def get (settings : Settings) : (field : Field) → Option field.Value
  | .mode => settings.mode
  | .secret => settings.secret
  | .vector => settings.vector
  | .digest => settings.digest

theorem ext_get {s t : Settings} (h : ∀ field, s.get field = t.get field) : s = t := by
  obtain ⟨mode, secret, vector, digest⟩ := s
  obtain ⟨mode', secret', vector', digest'⟩ := t
  obtain rfl : mode = mode' := h .mode
  obtain rfl : secret = secret' := h .secret
  obtain rfl : vector = vector' := h .vector
  obtain rfl : digest = digest' := h .digest
  rfl

@[simp]
theorem get_unset (field : Field) : unset.get field = none := by
  cases field <;> rfl

@[simp]
theorem get_orElse (upper lower : Settings) (field : Field) :
    (upper.orElse lower).get field = (upper.get field).or (lower.get field) := by
  obtain ⟨mode, secret, vector, digest⟩ := upper
  cases field with
  | mode => cases mode <;> rfl
  | secret => cases secret <;> rfl
  | vector => cases vector <;> rfl
  | digest => cases digest <;> rfl

theorem orElse_assoc (a b c : Settings) : (a.orElse b).orElse c = a.orElse (b.orElse c) :=
  ext_get fun field => by simp [Option.or_assoc]

theorem unset_orElse (a : Settings) : unset.orElse a = a :=
  ext_get fun field => by simp

theorem orElse_unset (a : Settings) : a.orElse unset = a :=
  ext_get fun field => by simp

end Settings

/-! ## Winners -/

/-- What a level holds in a field, if it is there and sets it. -/
def setAt (field : Field) (level : Option Settings) : Option field.Value :=
  level.bind fun settings => settings.get field

/-- What the first level that sets a field holds in it. -/
def winner (field : Field) (levels : List (Option Settings)) : Option field.Value :=
  levels.findSome? (setAt field)

theorem winner_cons (field : Field) (level : Option Settings) (levels : List (Option Settings)) :
    winner field (level :: levels) = (setAt field level).or (winner field levels) := by
  rw [winner, List.findSome?_cons]
  cases setAt field level <;> rfl

theorem winner_append (field : Field) (above below : List (Option Settings)) :
    winner field (above ++ below) = (winner field above).or (winner field below) :=
  List.findSome?_append

theorem get_foldl_orElse (field : Field) (levels : List (Option Settings)) (settings : Settings) :
    ((levels.filterMap id).foldl Settings.orElse settings).get field
      = (settings.get field).or (winner field levels) := by
  induction levels generalizing settings with
  | nil => simp [winner]
  | cons level levels ih =>
      rw [winner_cons]
      cases level with
      | none => simpa [setAt] using ih settings
      | some lower =>
          have hstep := ih (settings.orElse lower)
          rw [Settings.get_orElse, Option.or_assoc] at hstep
          exact hstep

/-- **Merging levels is taking the winner of each field.** -/
theorem get_merge (field : Field) (levels : List (Option Settings)) :
    (merge levels).get field = winner field levels := by
  rw [merge, get_foldl_orElse, Settings.get_unset, Option.none_or]

/-- A field that is set above does not matter below. -/
theorem winner_shadowed {field : Field} {above below : List (Option Settings)}
    {lower lower' : Option Settings}
    (h : (winner field above).isSome ∨ setAt field lower = setAt field lower') :
    winner field (above ++ lower :: below) = winner field (above ++ lower' :: below) := by
  rw [winner_append, winner_append, winner_cons, winner_cons]
  rcases h with habove | hsame
  · obtain ⟨a, ha⟩ := Option.isSome_iff_exists.1 habove
    rw [ha, Option.some_or, Option.some_or]
  · rw [hsame]

/-! ## Resolving -/

/-- The mode in force: AES with 256 bits and chained blocks if no level sets one. -/
def modeOf (levels : List (Option Settings)) : Mode :=
  (winner .mode levels).getD ⟨.bits256, true⟩

/-- The digest size in force. -/
def digestOf (levels : List (Option Settings)) : Nat :=
  (winner .digest levels).getD 512

/-- Blocks are chained and no level sets an initial vector. -/
def LacksVector (levels : List (Option Settings)) : Prop :=
  (modeOf levels).chained = true ∧ winner .vector levels = none

/-- What levels resolve to: a secret has to be set, then a vector if blocks are chained, then the
digest size has to be a known one, and the key is made of the winners. -/
structure Resolution (levels : List (Option Settings)) (result : Except CompileError Key) :
    Prop where
  lacks_secret : result = .error (.missing "secret" "encryption") ↔ winner .secret levels = none
  lacks_vector : winner .secret levels ≠ none →
    (result = .error (.missing "iv" ("encryption (" ++ (modeOf levels).name ++ ")"))
      ↔ LacksVector levels)
  odd_digest : winner .secret levels ≠ none → ¬ LacksVector levels →
    (result = .error (.invalid "sha" (.notDigestSize (digestOf levels)))
      ↔ digestOf levels ∉ [224, 256, 384, 512])
  key : winner .secret levels ≠ none → ¬ LacksVector levels →
    digestOf levels ∈ [224, 256, 384, 512] → ∃ key, result = .ok key
      ∧ key.mode = modeOf levels ∧ some key.secret = winner .secret levels
      ∧ key.digest = digestOf levels
      ∧ key.vector = if (modeOf levels).chained then winner .vector levels else none

theorem vectorFor_of_present {mode : Mode} {vector : Option String}
    (h : ¬ (mode.chained = true ∧ vector = none)) :
    vectorFor mode vector = .ok (if mode.chained then vector else none) := by
  unfold vectorFor Mode.needsVector
  split
  · next hchained =>
      cases vector with
      | none => exact absurd ⟨hchained, rfl⟩ h
      | some v => rfl
  · rfl

namespace Settings

variable {settings : Settings}

theorem complete_of_no_secret (h : settings.secret = none) :
    settings.complete = .error (.missing "secret" "encryption") := by
  rw [complete, h]
  rfl

theorem complete_of_no_vector (hsecret : settings.secret.isSome)
    (hchained : (settings.mode.getD default).chained = true) (hvector : settings.vector = none) :
    settings.complete
      = .error (.missing "iv" ("encryption (" ++ (settings.mode.getD default).name ++ ")")) := by
  obtain ⟨secret, hsecret⟩ := Option.isSome_iff_exists.1 hsecret
  have hlacking : vectorFor (settings.mode.getD default) settings.vector
      = .error (.missing "iv" ("encryption (" ++ (settings.mode.getD default).name ++ ")")) := by
    simp only [vectorFor, Mode.needsVector, hchained, hvector, if_true]
    rfl
  rw [complete, hsecret]
  simp only [bind, Except.bind, hlacking]

/-- With a secret, and a vector if it is needed, the digest size is all that is left to check. -/
theorem complete_of_vector {secret : String} (hsecret : settings.secret = some secret)
    (hvector : ¬ ((settings.mode.getD default).chained = true ∧ settings.vector = none)) :
    settings.complete
      = if settings.digest.getD defaultDigest ∈ digestSizes then
          .ok ⟨settings.mode.getD default, secret,
            if (settings.mode.getD default).chained then settings.vector else none,
            settings.digest.getD defaultDigest⟩
        else .error (.invalid "sha" (.notDigestSize (settings.digest.getD defaultDigest))) := by
  rw [complete, hsecret]
  simp only [bind, Except.bind, vectorFor_of_present hvector, List.contains_iff_mem]
  rfl

/-- A key has a vector exactly if its blocks are chained. -/
theorem vector_of_complete {key : Key} (h : settings.complete = .ok key) :
    key.vector.isSome = key.mode.chained := by
  cases hsecret : settings.secret with
  | none =>
      rw [complete_of_no_secret hsecret] at h
      cases h
  | some secret =>
      by_cases hlacks : (settings.mode.getD default).chained = true ∧ settings.vector = none
      · rw [complete_of_no_vector (by simp [hsecret]) hlacks.1 hlacks.2] at h
        cases h
      · rw [complete_of_vector hsecret hlacks] at h
        split at h
        · cases h
          cases hchained : (settings.mode.getD default).chained with
          | false => rfl
          | true =>
              have hvector : settings.vector ≠ none := fun hnone => hlacks ⟨hchained, hnone⟩
              exact Option.isSome_iff_ne_none.2 hvector
        · cases h

end Settings

/-- **Levels resolve to what their winners say.** -/
theorem resolution_merge (levels : List (Option Settings)) :
    Resolution levels (merge levels).complete := by
  have hmode : (merge levels).mode.getD default = modeOf levels :=
    congrArg (·.getD default) (get_merge .mode levels)
  have hsecret : (merge levels).secret = winner .secret levels := get_merge .secret levels
  have hvector : (merge levels).vector = winner .vector levels := get_merge .vector levels
  have hdigest : (merge levels).digest.getD defaultDigest = digestOf levels :=
    congrArg (·.getD defaultDigest) (get_merge .digest levels)
  cases hwinner : winner .secret levels with
  | none =>
      have hresult := Settings.complete_of_no_secret (hsecret.trans hwinner)
      exact ⟨by simp [hresult, hwinner], by simp [hwinner], by simp [hwinner], by simp [hwinner]⟩
  | some secret =>
      rw [hwinner] at hsecret
      by_cases hlacks : LacksVector levels
      · have hresult := Settings.complete_of_no_vector (by simp [hsecret])
          (hmode ▸ hlacks.1) (hvector.trans hlacks.2)
        rw [hmode] at hresult
        exact ⟨by simp [hresult, hwinner], by simp [hresult, hlacks], by simp [hlacks],
          by simp [hlacks]⟩
      · have hresult := Settings.complete_of_vector hsecret (by rwa [hmode, hvector])
        rw [hmode, hvector, hdigest, digestSizes] at hresult
        by_cases hdigest : digestOf levels ∈ [224, 256, 384, 512]
        · rw [if_pos hdigest] at hresult
          exact ⟨by simp [hresult, hwinner], by simp [hresult, hlacks],
            by simp [hresult, hdigest], fun _ _ _ => ⟨_, hresult, rfl, hwinner.symm, rfl, rfl⟩⟩
        · rw [if_neg hdigest] at hresult
          exact ⟨by simp [hresult, hwinner], by simp [hresult, hlacks],
            by simp [hresult, hdigest], by simp [hdigest]⟩

/-- **The first level that sets a field wins.** Settings can be merged in any grouping, and unset
ones change nothing. Column, call, query and model resolve to what the winner of each field says,
and a field of a level does not matter if a level above sets it. -/
theorem resolve_of_winners (column call query model : Option Settings) :
    (∀ a b c : Settings, (a.orElse b).orElse c = a.orElse (b.orElse c))
      ∧ (∀ a : Settings, Settings.unset.orElse a = a ∧ a.orElse .unset = a)
      ∧ Resolution [column, call, query, model] (resolve column call query model)
      ∧ ∀ (above below : List (Option Settings))
        (lower lower' column' call' query' model' : Option Settings),
        [column, call, query, model] = above ++ lower :: below →
        [column', call', query', model'] = above ++ lower' :: below →
        (∀ field, (winner field above).isSome ∨ setAt field lower = setAt field lower') →
        resolve column' call' query' model' = resolve column call query model := by
  refine ⟨Settings.orElse_assoc, fun a => ⟨a.unset_orElse, a.orElse_unset⟩,
    resolution_merge _, ?_⟩
  intro above below lower lower' column' call' query' model' hlevels hlevels' hshadowed
  have hmerge : merge (above ++ lower' :: below) = merge (above ++ lower :: below) := by
    refine Settings.ext_get fun field => ?_
    rw [get_merge, get_merge, winner_shadowed (hshadowed field)]
  rw [resolve, resolve, hlevels, hlevels', hmerge]

/-- The secret is that of the column, the vector that of the query and the mode that of the model;
another secret of the query makes no difference. -/
theorem resolve_of_winners_layered :
    (∃ key, resolve (some { secret := some "a" }) none
          (some { secret := some "b", vector := some "x" })
          (some { secret := some "c", mode := some ⟨.bits128, true⟩ }) = .ok key
      ∧ key.mode = ⟨.bits128, true⟩ ∧ some key.secret = some "a" ∧ key.vector = some "x")
    ∧ resolve (some { secret := some "a" }) none
          (some { secret := some "d", vector := some "x" })
          (some { secret := some "c", mode := some ⟨.bits128, true⟩ })
        = resolve (some { secret := some "a" }) none
          (some { secret := some "b", vector := some "x" })
          (some { secret := some "c", mode := some ⟨.bits128, true⟩ }) := by
  obtain ⟨-, -, hresolution, hshadowed⟩ := resolve_of_winners (some { secret := some "a" }) none
    (some { secret := some "b", vector := some "x" })
    (some { secret := some "c", mode := some ⟨.bits128, true⟩ })
  constructor
  · obtain ⟨key, hkey, hmode, hsecret, -, hvector⟩ :=
      hresolution.key nofun (fun h => nomatch h.2) (by decide)
    exact ⟨key, hkey, hmode, hsecret, hvector⟩
  · refine hshadowed [some { secret := some "a" }, none]
      [some { secret := some "c", mode := some ⟨.bits128, true⟩ }] _ _ _ _ _ _ rfl rfl ?_
    intro field
    cases field with
    | secret => exact .inl rfl
    | mode | vector | digest => exact .inr rfl

end QueryTree.Cipher
