import QueryTree.Decode

/-!
# Block modes

The AES modes that a statement may be encrypted under: a key size and whether the blocks are
chained. Chained modes need an initial vector.
-/

namespace QueryTree.Cipher

/-- Sizes of a key in bits. -/
inductive KeySize where
  | bits128
  | bits192
  | bits256
deriving DecidableEq, Repr

/-- The number of bits, as text. -/
def KeySize.text : KeySize → String
  | .bits128 => "128"
  | .bits192 => "192"
  | .bits256 => "256"

/-- A block mode. -/
structure Mode where
  size : KeySize
  chained : Bool
deriving DecidableEq, Repr

namespace Mode

/-- The mode that is used when none is set. -/
instance : Inhabited Mode := ⟨⟨.bits256, true⟩⟩

/-- The name of a mode. -/
def name (mode : Mode) : String :=
  "aes-" ++ mode.size.text ++ if mode.chained then "-cbc" else "-ecb"

/-- All modes, the unchained ones first. -/
def all : List Mode :=
  [⟨.bits128, false⟩, ⟨.bits192, false⟩, ⟨.bits256, false⟩,
   ⟨.bits128, true⟩, ⟨.bits192, true⟩, ⟨.bits256, true⟩]

instance : Named Mode where
  names := all.map fun mode => (mode.name, mode)

/-- Whether an initial vector is needed. -/
def needsVector (mode : Mode) : Bool :=
  mode.chained

/-- The name of the cipher without its block mode. -/
def cipher (mode : Mode) : String :=
  "aes" ++ mode.size.text

end Mode

end QueryTree.Cipher
