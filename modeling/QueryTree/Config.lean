import QueryTree.Cipher.Settings
import QueryTree.Toml.Document

/-!
# Configuration

What all compilations of one compiler share: the dialect, whether deletions need a filter, and
encryption settings of the model.

- `Config`: the configuration.
- `Config.decode`: a configuration from JSON.
- `Config.ofToml?`: a configuration from TOML.
-/

namespace QueryTree

/-- What all compilations share. -/
structure Config where
  dialect : Dialect := .mysql
  /-- Deletions without a filter are refused. -/
  safeMode : Bool := true
  encryption : Option Cipher.Settings := none
deriving DecidableEq, Repr

namespace Config

/-- The names of the fields. -/
def fieldNames : List String :=
  ["dialect", "safe_mode", "encryption"]

/-- Sets one field. -/
def decodeField (config : Config) (key : String) (json : Json) : Except DecodeError Config :=
  match key with
  | "dialect" => do return { config with dialect := ← decodeNamed Dialect json }
  | "safe_mode" => do return { config with safeMode := ← decodeFlag json }
  | "encryption" => do
    return { config with encryption := ← decodeOptional Cipher.Settings.decode json }
  | other => .error (.unknownField other fieldNames)

/-- Sets fields one after the other; the first problem is reported. -/
def decodeFields (config : Config) : List (String × Json) → Except DecodeError Config
  | [] => .ok config
  | (key, json) :: rest => do (← config.decodeField key json).decodeFields rest

/-- A configuration from an object, or from a list of its fields in order. Absent fields keep
their defaults. -/
def decode : Json → Except DecodeError Config
  | .obj fields => decodeFields {} fields
  | .arr items => do
    let config ← decodeFields {} (fieldNames.zip items)
    if 3 < items.length then throw (.tooLong items.length) else return config
  | other => .error (.wrongType (.ofJson other) "struct CompilerConfig")

/-- A configuration from TOML. -/
def ofToml? (s : String) : Option Config := do
  (decode (← Toml.document? s)).toOption

end Config

end QueryTree
