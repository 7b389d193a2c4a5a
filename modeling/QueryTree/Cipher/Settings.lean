import QueryTree.Error

/-!
# Encryption settings

Settings may be given at four levels. For each field the first level that sets it wins, in the
order column, call, query, model.

- `Settings`: the fields that one level sets.
- `Settings.orElse`: unset fields are taken from a lower level.
- `Key`: complete, checked settings.
- `resolve`: the key that the four levels amount to.
- `Settings.decode`: settings from JSON.
-/

namespace QueryTree.Cipher

/-- The fields that one level sets. -/
structure Settings where
  mode : Option Mode := none
  secret : Option String := none
  vector : Option String := none
  digest : Option Nat := none
deriving DecidableEq, Repr, Inhabited

namespace Settings

/-- Nothing is set. -/
def unset : Settings := {}

/-- Takes each unset field from `lower`. -/
def orElse (upper lower : Settings) : Settings where
  mode := upper.mode <|> lower.mode
  secret := upper.secret <|> lower.secret
  vector := upper.vector <|> lower.vector
  digest := upper.digest <|> lower.digest

end Settings

/-- Complete settings: the vector is there exactly if the mode needs one. -/
structure Key where
  mode : Mode
  secret : String
  vector : Option String
  digest : Nat
deriving DecidableEq, Repr

/-- The digest sizes that the secret may be hashed to. -/
def digestSizes : List Nat :=
  [224, 256, 384, 512]

/-- The digest size that is used when none is set. -/
def defaultDigest : Nat :=
  512

/-- Merges the levels that are given, upper levels first. -/
def merge (levels : List (Option Settings)) : Settings :=
  (levels.filterMap id).foldl Settings.orElse Settings.unset

/-- The initial vector that a mode asks for. -/
def vectorFor (mode : Mode) (vector : Option String) : Except CompileError (Option String) :=
  if mode.needsVector then
    match vector with
    | some v => .ok (some v)
    | none => .error (.missing "iv" s!"encryption ({mode.name})")
  else .ok none

/-- Checks merged settings and fills in the defaults. -/
def Settings.complete (settings : Settings) : Except CompileError Key := do
  let mode := settings.mode.getD default
  let secret ← match settings.secret with
    | some s => Except.ok s
    | none => .error (.missing "secret" "encryption")
  let vector ← vectorFor mode settings.vector
  let digest := settings.digest.getD defaultDigest
  if digestSizes.contains digest then return { mode, secret, vector, digest }
  else throw (.invalid "sha" (.notDigestSize digest))

/-- The key that four levels amount to. -/
def resolve (column call query model : Option Settings) : Except CompileError Key :=
  (merge [column, call, query, model]).complete

/-! ## Settings from JSON -/

namespace Settings

/-- The names of the fields. -/
def fieldNames : List String :=
  ["mode", "secret", "iv", "sha"]

/-- Sets one field. -/
def decodeField (settings : Settings) (key : String) (json : Json) :
    Except DecodeError Settings :=
  match key with
  | "mode" => do return { settings with mode := ← decodeOptional (decodeNamed Mode) json }
  | "secret" => do return { settings with secret := ← decodeOptional decodeText json }
  | "iv" => do return { settings with vector := ← decodeOptional decodeText json }
  | "sha" => do return { settings with digest := ← decodeOptional decodeNat16 json }
  | other => .error (.unknownField other fieldNames)

/-- Sets fields one after the other; the first problem is reported. -/
def decodeFields (settings : Settings) : List (String × Json) → Except DecodeError Settings
  | [] => .ok settings
  | (key, json) :: rest => do (← settings.decodeField key json).decodeFields rest

/-- Settings from an object, or from the list of all four fields. -/
def decode : Json → Except DecodeError Settings
  | .obj fields => unset.decodeFields fields
  | .arr items => do
    let settings ← unset.decodeFields (fieldNames.zip items)
    if items.length < 4 then
      throw (.tooShort items.length "struct EncryptionConfig with 4 elements")
    else if 4 < items.length then throw (.tooLong items.length)
    else return settings
  | other => .error (.wrongType (.ofJson other) "struct EncryptionConfig")

end Settings

end QueryTree.Cipher
