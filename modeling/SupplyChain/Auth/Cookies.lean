import SupplyChain.Auth.Session
import SupplyChain.Collections.InsertionMap
import SupplyChain.Text.PercentEncoding

/-!
# The session cookie

`parseCookies` and `serializeSessionCookie` of `cookies.ts`, and `currentBusinessId` of
`currentBusiness.ts`.
-/

namespace SupplyChain

open Collections PercentEncoding

/-- `SESSION_COOKIE_NAME` -/
def SESSION_COOKIE_NAME : List Char := "scs_session".toList

/-- `MAX_AGE_SECONDS` -/
def MAX_AGE_SECONDS : Nat := 30 * 24 * 60 * 60

/-- The properties of a plain object of strings. -/
abbrev Cookies := InsertionMap (List Char) (List Char)

/-- `out[key] = value`. The prototype of an object is not set to a string. -/
def Cookies.assign (out : Cookies) (key value : List Char) : Cookies :=
  if key = "__proto__".toList then out else InsertionMap.set out key value

/-- The body of the loop of `parseCookies`. -/
def parsePart (out : Cookies) (part : List Char) : Cookies :=
  match part.idxOf? '=' with
  | none => out
  | some eq =>
    let key := Double.trim (part.take eq)
    let value := Double.trim (part.drop (eq + 1))
    if key = [] then out
    else match decodeURIComponent value with
      | some decoded => out.assign key decoded
      | none => out.assign key value

/-- `parseCookies`, of the `Cookie` header. -/
def parseCookies : Option (List Char) → Cookies
  | none => .empty
  | some [] => .empty
  | some header => (header.splitOn ';').foldl parsePart .empty

/-- `serializeSessionCookie` -/
def serializeSessionCookie (token : List Char) (secure : Bool) : List Char :=
  let attrs : List (List Char) :=
    [SESSION_COOKIE_NAME ++ '=' :: encodeURIComponent token, "Path=/".toList, "HttpOnly".toList,
      "SameSite=Lax".toList, "Max-Age=".toList ++ MAX_AGE_SECONDS.repr.toList]
  let attrs := if secure then attrs ++ ["Secure".toList] else attrs
  "; ".toList.intercalate attrs

/-- `currentBusinessId`, of the request's `Cookie` header at the time `now`. -/
def currentBusinessId (mac : Hmac) (now : Time) (cookie : Option (List Char)) : Option (List Char) :=
  mac.verifySessionToken now ((parseCookies cookie).get SESSION_COOKIE_NAME)

/-! ## What a browser sends -/

/-- The pair of a `Set-Cookie` header, without its attributes. -/
def sentPair (setCookie : List Char) : List Char := setCookie.takeWhile (· ≠ ';')

/-- Only white space. -/
def Blank (text : List Char) : Prop := ∀ c ∈ text, Double.isSpace c = true

instance (text : List Char) : Decidable (Blank text) :=
  List.decidableBAll (fun c => Double.isSpace c = true) text

/-- A segment of another cookie, or without a name: it holds no `;`, and what stands before its first `=`,
if it has one, is not the name of the session cookie. -/
def OtherSegment (segment : List Char) : Prop :=
  ';' ∉ segment ∧
    ('=' ∈ segment → Double.trim (segment.takeWhile (· ≠ '=')) ≠ SESSION_COOKIE_NAME)

instance (segment : List Char) : Decidable (OtherSegment segment) :=
  inferInstanceAs (Decidable (';' ∉ segment ∧
    ('=' ∈ segment → Double.trim (segment.takeWhile (· ≠ '=')) ≠ SESSION_COOKIE_NAME)))

/-- A `Cookie` header around one pair: the segments before and after it, and the spaces next to it. -/
structure CookieHeader where
  /-- The segments before the pair. -/
  before : List (List Char)
  /-- The spaces on its left. -/
  left : List Char
  /-- The spaces on its right. -/
  right : List Char
  /-- The segments after it. -/
  after : List (List Char)
  /-- The spaces are spaces. -/
  blank : Blank left ∧ Blank right
  /-- The segments are none of the session cookie. -/
  others : ∀ segment ∈ before ++ after, OtherSegment segment

/-- The segments, joined by `;`. -/
def CookieHeader.text (h : CookieHeader) (pair : List Char) : List Char :=
  [';'].intercalate (h.before ++ (h.left ++ pair ++ h.right) :: h.after)

end SupplyChain
