import SupplyChain.Async.Outline
import SupplyChain.Auth.Cookies
import SupplyChain.Auth.Passwords
import SupplyChain.Business.PgBusinessStore
import SupplyChain.Text.Json

/-!
# The routes of business accounts

`businessRouter` of `routes/business.ts`, as programs that await the store. What a handler throws is answered 500
by the error handler. Of the answers to an invalid payload and to an error the details are left out.
-/

namespace SupplyChain

open Async

/-! ## Payloads -/

/-- What the schemas use of other code: the lower case of a text, and zod's check of an address. -/
structure Zod where
  /-- `toLowerCase()` -/
  toLowerCase : List Char → List Char
  /-- Whether `.email()` takes the address. -/
  email : List Char → Bool

/-- `length`, in UTF-16 code units. -/
def utf16Length (s : String) : Nat := (s.toList.map fun c => if c.toNat < 0x10000 then 1 else 2).sum

/-- `s.trim()` -/
def trim (s : String) : String := String.ofList (Double.trim s.toList)

/-- `/^#[0-9a-fA-F]{6}$/` -/
def hexColor (s : String) : Bool :=
  match s.toList with
  | '#' :: digits => digits.length == 6 && digits.all fun c => c.isDigit || "abcdefABCDEF".toList.contains c
  | _ => false

/-- `BUSINESS_TYPES`, in its order, with what each name stands for. -/
def BUSINESS_TYPES : List (String × BusinessType) :=
  [("b2c", .b2c), ("b2b2b", .b2b2b), ("b2b", .b2b), ("other", .other)]

/-- What `registerSchema` makes of a body. -/
structure RegisterPayload where
  /-- Trimmed and in lower case. -/
  email : String
  /-- As it was sent. -/
  password : String
  /-- Trimmed. -/
  businessName : String
  /-- One of `BUSINESS_TYPES`. -/
  businessType : BusinessType
  /-- Trimmed, and empty if there was none. -/
  description : String
  /-- The default color if there was none. -/
  accentColor : String

/-- What `loginSchema` makes of a body. -/
structure LoginPayload where
  /-- Trimmed and in lower case. -/
  email : String
  /-- As it was sent. -/
  password : String

namespace Zod

variable {ν : Type} (zod : Zod)

/-- The property of an object. -/
def field (name : String) : Json ν → Option (Json ν)
  | .object properties => (properties.find? fun p => p.1 = name).map Prod.snd
  | _ => none

/-- `z.string()`, and what the schema goes on to make of it. -/
def string (check : String → Option String) : Json ν → Option String
  | .string s => check s
  | _ => none

/-- `.default(value)` -/
def default (value : String) (schema : Json ν → Option String) : Option (Json ν) → Option String
  | none => some value
  | some json => schema json

/-- `.optional()`: what is there has to be valid. -/
def optional {α : Type} (schema : Json ν → Option α) : Option (Json ν) → Option (Option (Option α))
  | none => some none
  | some json => (schema json).map fun a => some (some a)

/-- `z.string().trim().toLowerCase().email()` -/
def emailSchema : Json ν → Option String :=
  string fun s =>
    let address := zod.toLowerCase (trim s).toList
    if zod.email address then some (String.ofList address) else none

/-- `z.string().min(min)` -/
def passwordSchema (min : Nat) : Json ν → Option String :=
  string fun s => if min ≤ utf16Length s then some s else none

/-- `z.string().trim().min(min).max(max)` -/
def textSchema (min max : Nat) : Json ν → Option String :=
  string fun s => if min ≤ utf16Length (trim s) ∧ utf16Length (trim s) ≤ max then some (trim s) else none

/-- `z.enum(BUSINESS_TYPES)` -/
def businessTypeSchema : Json ν → Option BusinessType
  | .string s => (BUSINESS_TYPES.find? fun t => t.1 = s).map Prod.snd
  | _ => none

/-- `accentColorSchema` -/
def accentColorSchema : Json ν → Option String := string fun s => if hexColor s then some s else none

/-- `registerSchema.safeParse(body)`; `none` is a failure. -/
def registerSchema (body : Json ν) : Option RegisterPayload := do
  let email ← field "email" body >>= zod.emailSchema
  let password ← field "password" body >>= passwordSchema 8
  let businessName ← field "businessName" body >>= textSchema 1 120
  let businessType ← field "businessType" body >>= businessTypeSchema
  let description ← default "" (textSchema 0 600) (field "description" body)
  let accentColor ← default "#9fd3ff" accentColorSchema (field "accentColor" body)
  return { email, password, businessName, businessType, description, accentColor }

/-- `loginSchema.safeParse(body)`; `none` is a failure. -/
def loginSchema (body : Json ν) : Option LoginPayload := do
  let email ← field "email" body >>= zod.emailSchema
  let password ← field "password" body >>= passwordSchema 1
  return { email, password }

/-- A patch has at least one field. -/
def profileUpdateSchema (body : Json ν) : Option BusinessProfilePatch :=
  match body with
  | .object _ => do
    let businessName ← optional (textSchema 1 120) (field "businessName" body)
    let businessType ← optional businessTypeSchema (field "businessType" body)
    let description ← optional (textSchema 0 600) (field "description" body)
    let accentColor ← optional accentColorSchema (field "accentColor" body)
    if businessName.isSome || businessType.isSome || description.isSome || accentColor.isSome then
      some { businessName, businessType, description, accentColor }
    else none
  | _ => none

end Zod

/-! ## Requests and responses -/

/-- The routes of `businessRouter`. -/
inductive BusinessRoute where
  /-- `POST /auth/register` -/
  | register
  /-- `POST /auth/login` -/
  | login
  /-- `POST /auth/logout` -/
  | logout
  /-- `GET /auth/me` -/
  | me
  /-- `PATCH /business/profile` -/
  | profile

/-- A request to one of the routes. -/
structure HttpRequest (ν : Type) where
  /-- The route. -/
  route : BusinessRoute
  /-- The body, which `express.json()` has parsed. -/
  body : Json ν
  /-- The `Cookie` header. -/
  cookie : Option (List Char)
  /-- Whether it came in over HTTPS. -/
  secure : Bool

/-- `PublicBusiness`: a business without its password. -/
structure PublicBusiness where
  id : String
  email : String
  businessName : String
  businessType : BusinessType
  description : String
  accentColor : String
  createdAt : Nat
  updatedAt : Nat

/-- `toPublic` -/
def toPublic (business : Business) : PublicBusiness where
  id := business.id
  email := business.email
  businessName := business.businessName
  businessType := business.businessType
  description := business.description
  accentColor := business.accentColor
  createdAt := business.createdAt
  updatedAt := business.updatedAt

/-- The body of a response: an error by its code, or an account. -/
inductive ResponseBody where
  /-- The payload does not pass its schema. -/
  | INVALID_PAYLOAD
  /-- The address has a business already. -/
  | EMAIL_TAKEN
  /-- There is no business with this address and password. -/
  | INVALID_CREDENTIALS
  /-- There is no session, or no business for it. -/
  | UNAUTHENTICATED
  /-- The business. -/
  | business (business : PublicBusiness)
  /-- No body. -/
  | empty

/-- A response. -/
structure HttpResponse where
  /-- The status code. -/
  status : Nat
  /-- The `Set-Cookie` header. -/
  setCookie : Option (List Char)
  /-- The body. -/
  body : ResponseBody

/-- `serializeClearCookie` -/
def serializeClearCookie (secure : Bool) : List Char :=
  let attrs : List (List Char) :=
    [SESSION_COOKIE_NAME ++ ['='], "Path=/".toList, "HttpOnly".toList, "SameSite=Lax".toList, "Max-Age=0".toList]
  let attrs := if secure then attrs ++ ["Secure".toList] else attrs
  "; ".toList.intercalate attrs

/-! ## Handlers -/

/-- What `register` draws for a business. -/
structure Draft where
  /-- `randomUUID()` -/
  id : String
  /-- What `hashPassword` draws. -/
  salt : Salt
  /-- `Date.now()` -/
  now : Nat

/-- What a handler awaits. A handler may be kept waiting before it looks at the clock or draws, too. -/
inductive BusinessCall where
  /-- `businessStore.getByEmail` -/
  | getByEmail (email : String)
  /-- `businessStore.create` -/
  | create (business : Business)
  /-- `businessStore.getById` -/
  | getById (id : String)
  /-- `businessStore.update` -/
  | update (id : String) (patch : BusinessProfilePatch)
  /-- `randomUUID()`, the salt and the date of a new business. -/
  | draw
  /-- `Date.now()` -/
  | dateNow

/-- What a handler throws. -/
inductive BusinessError where
  /-- A statement has failed; the error handler answers 500. -/
  | INTERNAL_ERROR

/-- The calls with their replies. -/
def BusinessCalls : Interface where
  Call := BusinessCall
  Reply
    | .getByEmail _ => Option Business
    | .create _ => Unit
    | .getById _ => Option Business
    | .update _ _ => Business
    | .draw => Draft
    | .dateNow => Time

/-- A handler, which comes to a response if nothing throws. -/
abbrev BusinessHandler := Prog BusinessCalls BusinessError

namespace BusinessHandler

/-- `await businessStore.getByEmail(email)` -/
def getByEmail (email : String) : BusinessHandler (Option Business) :=
  Prog.await (S := BusinessCalls) (.getByEmail email)

/-- `await businessStore.create(business)` -/
def create (business : Business) : BusinessHandler Unit := Prog.await (S := BusinessCalls) (.create business)

/-- `await businessStore.getById(id)` -/
def getById (id : String) : BusinessHandler (Option Business) := Prog.await (S := BusinessCalls) (.getById id)

/-- `await businessStore.update(id, patch)` -/
def update (id : String) (patch : BusinessProfilePatch) : BusinessHandler Business :=
  Prog.await (S := BusinessCalls) (.update id patch)

/-- What is drawn for a business. -/
def draw : BusinessHandler Draft := Prog.await (S := BusinessCalls) .draw

/-- `Date.now()` -/
def dateNow : BusinessHandler Time := Prog.await (S := BusinessCalls) .dateNow

end BusinessHandler

/-- What the handlers use. -/
structure BusinessRouter where
  /-- What the schemas use. -/
  zod : Zod
  /-- What signs sessions. -/
  mac : Hmac
  /-- What hashes passwords. -/
  scrypt : Scrypt

namespace BusinessRouter

open BusinessHandler

variable {ν : Type} (router : BusinessRouter)

/-- `setSessionCookie` -/
def sessionCookie (now : Time) (req : HttpRequest ν) (businessId : String) : List Char :=
  serializeSessionCookie (router.mac.createSessionToken now businessId.toList) req.secure

/-- The business that a payload registers. -/
def newBusiness (draft : Draft) (payload : RegisterPayload) : Business where
  id := draft.id
  email := payload.email
  passwordHash := String.ofList (router.scrypt.hashPassword draft.salt payload.password.toList)
  businessName := payload.businessName
  businessType := payload.businessType
  description := payload.description
  accentColor := payload.accentColor
  createdAt := draft.now
  updatedAt := draft.now

/-- `POST /auth/register`. The lookup comes before the insert, so two requests can pass it at once. -/
def register (req : HttpRequest ν) : BusinessHandler HttpResponse :=
  match router.zod.registerSchema req.body with
  | none => return ⟨400, none, .INVALID_PAYLOAD⟩
  | some payload => do
    if (← getByEmail payload.email).isSome then return ⟨409, none, .EMAIL_TAKEN⟩
    let draft ← draw
    let business := router.newBusiness draft payload
    create business
    let now ← dateNow
    return ⟨201, some (router.sessionCookie now req business.id), .business (toPublic business)⟩

/-- `POST /auth/login` -/
def login (req : HttpRequest ν) : BusinessHandler HttpResponse :=
  match router.zod.loginSchema req.body with
  | none => return ⟨400, none, .INVALID_PAYLOAD⟩
  | some payload => do
    match ← getByEmail payload.email with
    | none => return ⟨401, none, .INVALID_CREDENTIALS⟩
    | some business =>
      if router.scrypt.verifyPassword payload.password.toList business.passwordHash.toList then
        let now ← dateNow
        return ⟨200, some (router.sessionCookie now req business.id), .business (toPublic business)⟩
      else return ⟨401, none, .INVALID_CREDENTIALS⟩

/-- `POST /auth/logout` -/
def logout (req : HttpRequest ν) : BusinessHandler HttpResponse :=
  return ⟨204, some (serializeClearCookie req.secure), .empty⟩

/-- `currentBusinessId` -/
def currentBusinessId (now : Time) (req : HttpRequest ν) : Option String :=
  (SupplyChain.currentBusinessId router.mac now req.cookie).map String.ofList

/-- `GET /auth/me` -/
def me (req : HttpRequest ν) : BusinessHandler HttpResponse := do
  let now ← dateNow
  match router.currentBusinessId now req with
  | none => return ⟨401, none, .UNAUTHENTICATED⟩
  | some businessId =>
    match ← getById businessId with
    | none => return ⟨401, none, .UNAUTHENTICATED⟩
    | some business => return ⟨200, none, .business (toPublic business)⟩

/-- `PATCH /business/profile` -/
def profile (req : HttpRequest ν) : BusinessHandler HttpResponse := do
  let now ← dateNow
  match router.currentBusinessId now req with
  | none => return ⟨401, none, .UNAUTHENTICATED⟩
  | some businessId =>
    match Zod.profileUpdateSchema req.body with
    | none => return ⟨400, none, .INVALID_PAYLOAD⟩
    | some patch =>
      let updated ← update businessId patch
      return ⟨200, none, .business (toPublic updated)⟩

/-- The handler of the request's route. -/
def handler (req : HttpRequest ν) : BusinessHandler HttpResponse :=
  match req.route with
  | .register => router.register req
  | .login => router.login req
  | .logout => logout req
  | .me => router.me req
  | .profile => router.profile req

end BusinessRouter

end SupplyChain
