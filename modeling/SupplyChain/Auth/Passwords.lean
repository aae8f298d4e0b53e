import SupplyChain.Auth.Session

/-!
# Passwords

`hashPassword` and `verifyPassword` of `passwords.ts`.
-/

namespace SupplyChain

/-- `KEY_LENGTH` -/
def KEY_LENGTH : Nat := 64

/-- `scryptSync` of a password and a salt, with the parameters `SCRYPT_PARAMS`. -/
structure Scrypt where
  /-- The key that is derived. -/
  scryptSync : List Char → List Char → List UInt8
  /-- It is as long as was asked for. -/
  length_scryptSync : ∀ password salt, (scryptSync password salt).length = KEY_LENGTH

/-- What `randomBytes(16)` returns. -/
structure Salt where
  /-- The bytes drawn. -/
  bytes : List UInt8
  /-- There are 16 of them. -/
  length_bytes : bytes.length = 16

/-- `salt.toString("hex")` -/
def Salt.text (salt : Salt) : List Char := Hex.encode salt.bytes

namespace Scrypt

variable (scrypt : Scrypt)

/-- `hashPassword`, with the salt that it draws. -/
def hashPassword (salt : Salt) (password : List Char) : List Char :=
  let derivedKey := Hex.encode (scrypt.scryptSync password salt.text)
  "scrypt".toList ++ ':' :: salt.text ++ ':' :: derivedKey

/-- `verifyPassword` -/
def verifyPassword (password stored : List Char) : Bool :=
  match stored.splitOn ':' with
  | scheme :: salt :: derivedKeyHex :: _ =>
    if scheme ≠ "scrypt".toList ∨ salt = [] ∨ derivedKeyHex = [] then false
    else
      let candidate := scrypt.scryptSync password salt
      let expected := Hex.decode derivedKeyHex
      if candidate.length ≠ expected.length then false else timingSafeEqual candidate expected
  | _ => false

end Scrypt

end SupplyChain
