import SupplyChain.Text.Hex

/-!
# Session tokens

`createSessionToken` and `verifySessionToken` of `session.ts`. The secret of the process does not change.
-/

namespace SupplyChain

/-- `SESSION_TTL_MS` -/
def SESSION_TTL_MS : Int := 30 * 24 * 60 * 60 * 1000

/-- What `Date.now()` returns: milliseconds, within the range of dates. -/
structure Time where
  /-- Milliseconds since 1970. -/
  ms : Int
  /-- They are those of a date. -/
  range : |ms| ≤ 8640000000000000

/-- HMAC-SHA256 under the secret of the process. -/
structure Hmac where
  /-- The digest of a text. -/
  digest : List Char → List UInt8
  /-- It has 32 bytes. -/
  length_digest : ∀ payload, (digest payload).length = 32

/-- The id of a business: not empty, and without a dot. -/
structure BusinessId where
  /-- Its characters. -/
  text : List Char
  /-- There is one. -/
  ne_nil : text ≠ []
  /-- None is a dot. -/
  no_dot : '.' ∉ text

/-- `${n}`, for an integer that a double holds. -/
def numberText (n : Int) : List Char := n.repr.toList

/-- `timingSafeEqual`, of buffers of one length. -/
def timingSafeEqual (a b : List UInt8) : Bool := a == b

/-- `Number.isFinite` -/
def isFinite : Double → Bool
  | .finite _ => true
  | _ => false

/-- The part of a token that is signed. -/
def tokenPayload (now : Time) (businessId : List Char) : List Char :=
  let expiresAt := now.ms + SESSION_TTL_MS
  businessId ++ '.' :: numberText expiresAt

namespace Hmac

variable (mac : Hmac)

/-- `sign` -/
def sign (payload : List Char) : List Char := Hex.encode (mac.digest payload)

/-- `createSessionToken`, at the time `now`. -/
def createSessionToken (now : Time) (businessId : List Char) : List Char :=
  let payload := tokenPayload now businessId
  payload ++ '.' :: mac.sign payload

/-- `verifySessionToken`, at the time `now`. -/
def verifySessionToken (now : Time) : Option (List Char) → Option (List Char)
  | none => none
  | some [] => none
  | some token =>
    match token.splitOn '.' with
    | [businessId, expiresAtStr, signature] =>
      if businessId = [] ∨ expiresAtStr = [] ∨ signature = [] then none
      else
        let expected := mac.sign (businessId ++ '.' :: expiresAtStr)
        let sigBuf := Hex.decode signature
        let expectedBuf := Hex.decode expected
        if sigBuf.length ≠ expectedBuf.length ∨ !timingSafeEqual sigBuf expectedBuf then none
        else
          let expiresAt := Double.Number expiresAtStr
          -- `Date.now() > expiresAt`
          if !isFinite expiresAt ∨ expiresAt.lt (Double.ofInt now.ms) then none
          else some businessId
    | _ => none

end Hmac

/-- The text after the second dot. -/
def signaturePart (token : List Char) : Option (List Char) := (token.splitOn '.')[2]?

end SupplyChain
