import QueryTree.Scope
import QueryTree.Sql.Fragment

/-!
# Encryption and decryption

An expression is encrypted or decrypted by a function of the dialect. The key material is always
bound, never written.

- `Direction`: encryption or decryption.
- `Cipher.Key.apply`: an expression passed through the cipher of a dialect.
- `Scope.cipher`: the same with the key that the scope gives a column.
-/

namespace QueryTree

open Fragment (word literal call)
open Cipher (Settings Key)

/-- The two ways through a cipher. -/
inductive Direction where
  | encrypt
  | decrypt
deriving DecidableEq, Repr

/-- The name of the feature in messages. -/
def Direction.feature : Direction → String
  | .encrypt => "encrypt"
  | .decrypt => "decrypt"

/-- The secret, hashed to a key of the given size under a block mode. -/
def hashedSecret (key : Key) : Fragment :=
  .mode key.mode ++
    call "UNHEX" [call "SHA2" [.secret key.secret, word (Decimal.natText key.digest)]]

/-- Passes an expression through the cipher of a dialect. -/
def Cipher.Key.apply (key : Key) (dialect : Dialect) (direction : Direction) (f : Fragment) :
    Fragment :=
  match dialect with
  | .mysql =>
    let function := match direction with
      | .encrypt => "AES_ENCRYPT"
      | .decrypt => "AES_DECRYPT"
    call function ([f, hashedSecret key] ++ key.vector.toList.map Fragment.secret)
  | .postgresql =>
    let cipher := literal ("cipher-algo=" ++ key.mode.cipher)
    match direction with
    | .encrypt => call "pgp_sym_encrypt" [f.cast ["TEXT"], .secret key.secret, cipher]
    | .decrypt => call "pgp_sym_decrypt" [f.cast ["BYTEA"], .secret key.secret, cipher]
  | .sqlite => f ++ .fail (.unsupported direction.feature dialect)

/-- Passes an expression through the cipher with the key that the scope gives a column. -/
def Scope.cipher (scope : Scope) (direction : Direction) (column : Settings) (f : Fragment) :
    Fragment :=
  match scope.resolve (some column) with
  | .ok key => key.apply scope.dialect direction f
  | .error e => f ++ .fail e

end QueryTree
