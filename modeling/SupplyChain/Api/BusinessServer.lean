import SupplyChain.Api.BusinessRoutes

/-!
# The server of business accounts

The requests that a server serves, any number of them at once, which take turns where they await the store. The
statements are those of `PgBusinessStore`, and any of them may fail. The clocks may move in any way.
-/

namespace SupplyChain

open Async

/-- What befalls a statement that fails on the way. It has been executed by then or never is: a statement that
Postgres still executes after the handler has thrown, because its connection was lost, is not considered. -/
inductive Fault where
  /-- It does not get to Postgres. -/
  | unsent
  /-- Postgres executes it, and its result is lost. -/
  | unanswered

/-- What the server has around it: other code, Postgres, and what is random. -/
structure BusinessServer where
  /-- What the handlers use. -/
  router : BusinessRouter
  /-- The Postgres with the table. -/
  pg : BusinessPostgres
  /-- Postgres writes a UUID with 36 characters. -/
  uuidChars_uuid : ∀ {s u}, pg.uuid s = some u → uuidChars 0 u.toList = true
  /-- What `randomUUID()` draws. -/
  uuids : Nat → String
  /-- `randomUUID()` draws UUIDs as Postgres writes them. -/
  uuid_uuids : ∀ n, pg.uuid (uuids n) = some (uuids n)
  /-- What `randomBytes(16)` draws. -/
  salts : Nat → Salt
  /-- What befalls the `n`-th statement. -/
  faults : Nat → Option Fault

/-- What the requests share. -/
structure AccountState (pg : BusinessPostgres) where
  /-- The rows of `businesses`. -/
  table : PgBusinesses pg
  /-- What `Date.now()` gives. -/
  clock : Time
  /-- It is 1970 or later. -/
  clock_nonneg : 0 ≤ clock.ms
  /-- `now()`, of Postgres. -/
  pgClock : Nat
  /-- How many ids were drawn. -/
  drawn : Nat
  /-- How many statements were sent. -/
  queried : Nat

/-- What the calls of a request have done. -/
structure RequestNotes where
  /-- The id that was drawn. -/
  drafted : Option String
  /-- The business that was created. -/
  created : Option Business
  /-- When the handler last looked at the clock. -/
  time : Option Time

namespace BusinessServer

variable (server : BusinessServer)

/-- A statement, which says what becomes of the table and what the result is, unless Postgres rejects it. If it
is executed, that is before the handler goes on or throws. -/
def query {α : Type} (statement : PgBusinesses server.pg → Option (PgBusinesses server.pg × α))
    (s : AccountState server.pg) : AccountState server.pg × Except BusinessError α :=
  match statement s.table, server.faults s.queried with
  | some (table, a), none => ({ s with table, queried := s.queried + 1 }, .ok a)
  | some (table, _), some .unanswered => ({ s with table, queried := s.queried + 1 }, .error .INTERNAL_ERROR)
  | _, _ => ({ s with queried := s.queried + 1 }, .error .INTERNAL_ERROR)

/-- What a call does and comes to. -/
def handle : Handler BusinessCalls BusinessError (AccountState server.pg)
  | .getByEmail email => server.query fun t => (t.getByEmail email).map fun found => (t, found)
  | .create business => server.query fun t => (t.create business).map fun t => (t, ())
  | .getById id => server.query fun t => (t.getById id).map fun found => (t, found)
  | .update id patch => fun s => server.query (fun t => t.update id patch s.pgClock) s
  | .draw => fun s =>
    ({ s with drawn := s.drawn + 1 }, .ok ⟨server.uuids s.drawn, server.salts s.drawn, s.clock.ms.toNat⟩)
  | .dateNow => fun s => (s, .ok s.clock)

/-- What is noted of a call when it has its reply. -/
def note (notes : RequestNotes) : (c : BusinessCall) → BusinessCalls.Reply c → RequestNotes
  | .draw, draft => { notes with drafted := some draft.id }
  | .create business, _ => { notes with created := some business }
  | .dateNow, now => { notes with time := some now }
  | _, _ => notes

/-- The requests of `ι` take turns in any order. -/
def system (ι : Type) : System BusinessCalls ι BusinessError (AccountState server.pg) RequestNotes where
  handle := server.handle
  note := note
  guard _ _ _ _ := True
  env s s' := ∃ clock pgClock, ∃ h : 0 ≤ clock.ms, s' = { s with clock, pgClock, clock_nonneg := h }

variable {ι ν : Type}

/-- What is being served. -/
abbrev Serving (ι : Type) := Pool BusinessCalls ι BusinessError (AccountState server.pg) RequestNotes HttpResponse

/-- All requests are there, and none has begun. -/
def serve (s : AccountState server.pg) (requests : ι → HttpRequest ν) : server.Serving ι where
  state := s
  aux _ := ⟨none, none, none⟩
  prog i := server.router.handler (requests i)

end BusinessServer

/-! ## What a client is shown -/

/-- A request that registers a business. -/
def BusinessRouter.Registers {ν : Type} (router : BusinessRouter) (req : HttpRequest ν)
    (payload : RegisterPayload) : Prop :=
  req.route = .register ∧ router.zod.registerSchema req.body = some payload

/-- A request that registers the address. -/
def BusinessServer.Races {ν : Type} (server : BusinessServer) (email : String) (req : HttpRequest ν) : Prop :=
  ∃ payload, server.router.Registers req payload ∧ payload.email = email

/-- Postgres can store the strings of a payload, and the address fits on a page of its index. -/
def RegisterPayload.fits (pg : BusinessPostgres) (payload : RegisterPayload) : Bool :=
  [payload.email, payload.businessName, payload.description].all storable && pg.emailFits payload.email

/-- A `Cookie` header with a session of a business, which was issued at the time `issued`. -/
def BusinessRouter.Carries (router : BusinessRouter) (issued : Time) (businessId : String)
    (cookie : Option (List Char)) : Prop :=
  ∃ (header : CookieHeader) (secure : Bool), cookie = some (header.text (sentPair
    (serializeSessionCookie (router.mac.createSessionToken issued businessId.toList) secure)))

namespace PublicBusiness

/-- The same account, with another profile maybe. -/
def Same (account account' : PublicBusiness) : Prop :=
  account.id = account'.id ∧ account.email = account'.email ∧ account.createdAt = account'.createdAt

/-- The profile has what a patch sets. -/
def Has (account : PublicBusiness) (patch : BusinessProfilePatch) : Prop :=
  (∀ name ∈ patch.businessName.join, account.businessName = name) ∧
    (∀ type ∈ patch.businessType.join, account.businessType = type) ∧
    (∀ text ∈ patch.description.join, account.description = text) ∧
    ∀ color ∈ patch.accentColor.join, account.accentColor = color

end PublicBusiness

/-- What a request is answered when there is an account, which `payload` registered with a salt. The handler last
looked at the clock at `time`. -/
structure AnsweredWith {ν : Type} (router : BusinessRouter) (payload : RegisterPayload) (salt : Salt)
    (account : PublicBusiness) (req : HttpRequest ν) (time : Option Time) (response : HttpResponse) : Prop where
  /-- Registering the address again fails. -/
  register : ∀ again, router.Registers req again → again.email = payload.email →
    response = ⟨409, none, .EMAIL_TAKEN⟩
  /-- Its password logs in, and no other does. -/
  login : ∀ credentials, req.route = .login → router.zod.loginSchema req.body = some credentials →
    credentials.email = payload.email →
      if router.scrypt.scryptSync credentials.password.toList salt.text =
          router.scrypt.scryptSync payload.password.toList salt.text then
        ∃ now shown, time = some now ∧ shown.Same account ∧
          response = ⟨200, some (router.sessionCookie now req account.id), .business shown⟩
      else response = ⟨401, none, .INVALID_CREDENTIALS⟩
  /-- Its session shows the account until it expires. -/
  me : ∀ issued, req.route = .me → router.Carries issued account.id req.cookie →
    ∃ now, time = some now ∧
      if now.ms ≤ issued.ms + SESSION_TTL_MS then
        ∃ shown, shown.Same account ∧ response = ⟨200, none, .business shown⟩
      else response = ⟨401, none, .UNAUTHENTICATED⟩
  /-- Its session edits the profile until it expires, if the payload is valid. -/
  profile : ∀ issued, req.route = .profile → router.Carries issued account.id req.cookie →
    ∃ now, time = some now ∧
      if now.ms ≤ issued.ms + SESSION_TTL_MS then
        (Zod.profileUpdateSchema req.body = none → response = ⟨400, none, .INVALID_PAYLOAD⟩) ∧
          ∀ patch, Zod.profileUpdateSchema req.body = some patch →
            ∃ shown, shown.Same account ∧ shown.Has patch ∧ response = ⟨200, none, .business shown⟩
      else response = ⟨401, none, .UNAUTHENTICATED⟩

/-- A handler that has returned or thrown. -/
def Done {S : Interface} {ε α : Type} (handler : Prog S ε α) : Prop := ∀ c k, handler ≠ .call c k

instance {S : Interface} {ε α : Type} : (handler : Prog S ε α) → Decidable (Done handler)
  | .ret _ => .isTrue nofun
  | .throw _ => .isTrue nofun
  | .call c k => .isFalse fun h => h c k rfl

/-- Nothing but another registration keeps an address from being registered, up to the state `s`: no statement
fails, the ids that are drawn are new, the address is not in the table, and what is to be stored fits. -/
structure Undisturbed {ι ν : Type} (server : BusinessServer) (requests : ι → HttpRequest ν) (email : String)
    (start s : AccountState server.pg) : Prop where
  /-- No statement fails on the way. -/
  faults : ∀ n, server.faults n = none
  /-- No id is drawn twice. -/
  distinct : ∀ m n, start.drawn ≤ m → m < n → n < s.drawn → server.uuids m ≠ server.uuids n
  /-- No id is drawn that the table has. -/
  unused : ∀ n, start.drawn ≤ n → n < s.drawn → server.uuids n ∉ start.table.rows.map BusinessRow.id
  /-- The address is not in the table. -/
  free : email ∉ start.table.rows.map BusinessRow.email
  /-- What is registered for it can be stored. -/
  fits : ∀ i payload, server.router.Registers (requests i) payload → payload.email = email →
    payload.fits server.pg = true

/-- A request that changes the profile of a business whenever its session is live. -/
def BusinessServer.Edits {ν : Type} (server : BusinessServer) (req : HttpRequest ν) (id : String) : Prop :=
  req.route = .profile ∧
    ∃ now businessId, server.router.currentBusinessId now req = some businessId ∧
      server.pg.uuid businessId = some id

end SupplyChain
