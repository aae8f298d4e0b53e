import SupplyChain.Api.Proofs.BusinessServerProofs
import SupplyChain.Async.Proofs.ExecProofs

/-!
# Proofs: what a request comes to when no statement fails

A registration is taken in two parts, the look at the address and the rest, since another one can come between.
-/

namespace SupplyChain

open Async

namespace BusinessServer

variable {server : BusinessServer} {ι ν : Type} [DecidableEq ι] {P : server.Serving ι} {i : ι}
  {req : HttpRequest ν} {payload : RegisterPayload}

/-- Request `i` took turns, and nothing else happened. -/
structure Leaves (i : ι) (P P' : server.Serving ι) : Prop where
  reached : (server.system ι).Reaches P P'
  clock : P'.state.clock = P.state.clock
  others : ∀ j, j ≠ i → P'.prog j = P.prog j

theorem Leaves.trans {P' P'' : server.Serving ι} (h : Leaves i P P') (h' : Leaves i P' P'') : Leaves i P P'' where
  reached := h.reached.trans h'.reached
  clock := h'.clock.trans h.clock
  others j hj := (h'.others j hj).trans (h.others j hj)

theorem query_clock {α : Type} (statement : PgBusinesses server.pg → Option (PgBusinesses server.pg × α))
    (s : AccountState server.pg) : (server.query statement s).1.clock = s.clock := by
  unfold query
  split <;> rfl

theorem handle_clock (c : BusinessCall) (s : AccountState server.pg) : (server.handle c s).1.clock = s.clock := by
  cases c with
  | draw | dateNow => rfl
  | getByEmail _ | create _ | getById _ | update _ _ => exact query_clock _ s

theorem leaves_await {c : BusinessCall} {f : BusinessCalls.Reply c → BusinessHandler HttpResponse}
    {s' : AccountState server.pg} {r : BusinessCalls.Reply c}
    (hprog : P.prog i = Prog.await (S := BusinessCalls) c >>= f) (hc : server.handle c P.state = (s', .ok r)) :
    ∃ P', Leaves i P P' ∧ P'.prog i = f r ∧ P'.state = s' ∧ P'.aux i = note (P.aux i) c r := by
  obtain ⟨P', hr, hprog', rfl, haux, hothers⟩ := reaches_await (M := server.system ι) hprog trivial hc
  have hclock := handle_clock c P.state
  rw [hc] at hclock
  exact ⟨P', ⟨hr, hclock, hothers⟩, hprog', rfl, haux⟩

/-- The rest of a registration that has found its address free. -/
def enter (server : BusinessServer) (req : HttpRequest ν) (payload : RegisterPayload) :
    BusinessHandler HttpResponse := do
  let draft ← BusinessHandler.draw
  let business := server.router.newBusiness draft payload
  BusinessHandler.create business
  let now ← BusinessHandler.dateNow
  return ⟨201, some (server.router.sessionCookie now req business.id), .business (toPublic business)⟩

section Quiet

variable {s : AccountState server.pg} (hquiet : ∀ n, server.faults n = none)

include hquiet

/-- What a statement does that nothing befalls. -/
theorem query_quiet {α : Type} {statement : PgBusinesses server.pg → Option (PgBusinesses server.pg × α)}
    {table : PgBusinesses server.pg} {a : α} (h : statement s.table = some (table, a)) :
    server.query statement s = ({ s with table, queried := s.queried + 1 }, .ok a) := by
  unfold query
  rw [h, hquiet]

omit hquiet in
/-- What Postgres rejects is an error, whatever befalls the statement. -/
theorem query_rejected {α : Type} {statement : PgBusinesses server.pg → Option (PgBusinesses server.pg × α)}
    (h : statement s.table = none) :
    server.query statement s = ({ s with queried := s.queried + 1 }, .error .INTERNAL_ERROR) := by
  unfold query
  rw [h]

theorem getByEmail_quiet {email : String} {found : Option Business} (h : s.table.getByEmail email = some found) :
    server.handle (.getByEmail email) s = ({ s with queried := s.queried + 1 }, .ok found) := by
  unfold handle
  exact query_quiet hquiet (congrArg (Option.map fun found => (s.table, found)) h)

theorem getById_quiet {id : String} {found : Option Business} (h : s.table.getById id = some found) :
    server.handle (.getById id) s = ({ s with queried := s.queried + 1 }, .ok found) := by
  unfold handle
  exact query_quiet hquiet (congrArg (Option.map fun found => (s.table, found)) h)

theorem create_quiet {business : Business} {table : PgBusinesses server.pg}
    (h : s.table.create business = some table) :
    server.handle (.create business) s = ({ s with table, queried := s.queried + 1 }, .ok ()) := by
  unfold handle
  exact query_quiet hquiet (congrArg (Option.map fun table => (table, ())) h)

omit hquiet in
theorem create_rejected {business : Business} (h : s.table.create business = none) :
    server.handle (.create business) s = ({ s with queried := s.queried + 1 }, .error .INTERNAL_ERROR) := by
  unfold handle
  exact query_rejected (congrArg (Option.map fun table => (table, ())) h)

theorem update_quiet {id : String} {patch : BusinessProfilePatch} {table : PgBusinesses server.pg}
    {updated : Business} (h : s.table.update id patch s.pgClock = some (table, updated)) :
    server.handle (.update id patch) s = ({ s with table, queried := s.queried + 1 }, .ok updated) := by
  unfold handle
  exact query_quiet hquiet h

variable (hregisters : server.router.Registers req payload) (hfits : payload.fits server.pg = true)

include hregisters hfits

/-- A registration finds its address free. -/
theorem register_looks (hprog : P.prog i = server.router.handler req)
    (hfree : payload.email ∉ P.state.table.rows.map BusinessRow.email) :
    ∃ P', Leaves i P P' ∧ P'.prog i = server.enter req payload ∧ P'.state.table = P.state.table ∧
      P'.state.drawn = P.state.drawn := by
  obtain ⟨hroute, hschema⟩ := hregisters
  have hget := PgBusinesses.getByEmail_free (storable_email hfits) hfree
  rw [BusinessRouter.handler, hroute] at hprog
  dsimp only at hprog
  rw [BusinessRouter.register, hschema] at hprog
  obtain ⟨P', hleaves, hprog', hstate, -⟩ := leaves_await hprog (getByEmail_quiet hquiet hget)
  exact ⟨P', hleaves, hprog', by rw [hstate], by rw [hstate]⟩

/-- A registration of an address that is taken is refused. -/
theorem register_taken (hprog : P.prog i = server.router.handler req) {row : BusinessRow}
    (hrow : row ∈ P.state.table.rows) (hemail : row.email = payload.email) :
    ∃ P', Leaves i P P' ∧ P'.prog i = .ret ⟨409, none, .EMAIL_TAKEN⟩ ∧ P'.state.table = P.state.table ∧
      P'.state.drawn = P.state.drawn := by
  obtain ⟨hroute, hschema⟩ := hregisters
  have hget : P.state.table.getByEmail payload.email = some (some row.toBusiness) := by
    have hstorable := storable_email hfits
    rw [← hemail] at hstorable ⊢
    exact PgBusinesses.getByEmail_taken hstorable hrow
  rw [BusinessRouter.handler, hroute] at hprog
  dsimp only at hprog
  rw [BusinessRouter.register, hschema] at hprog
  obtain ⟨P', hleaves, hprog', hstate, -⟩ := leaves_await hprog (getByEmail_quiet hquiet hget)
  exact ⟨P', hleaves, hprog', by rw [hstate], by rw [hstate]⟩

/-- An address that is still free is entered. -/
theorem enter_free (hprog : P.prog i = server.enter req payload)
    (hfree : payload.email ∉ P.state.table.rows.map BusinessRow.email)
    (hunused : server.uuids P.state.drawn ∉ P.state.table.rows.map BusinessRow.id) :
    ∃ P' cookie draft, Leaves i P P' ∧ draft.id = server.uuids P.state.drawn ∧
      P'.prog i = .ret ⟨201, cookie, .business (toPublic (server.router.newBusiness draft payload))⟩ ∧
      P'.state.table.rows = P.state.table.rows ++ [(server.router.newBusiness draft payload).row draft.id] ∧
      P'.state.drawn = P.state.drawn + 1 := by
  let draft : Draft := ⟨server.uuids P.state.drawn, server.salts P.state.drawn, P.state.clock.ms.toNat⟩
  obtain ⟨P₁, hleaves₁, hprog₁, hstate₁, -⟩ := leaves_await (c := .draw) hprog rfl
  have huuid : server.pg.uuid draft.id = some draft.id := server.uuid_uuids _
  have hinserted : ∃ table, P₁.state.table.create (server.router.newBusiness draft payload) = some table := by
    rw [hstate₁]
    exact (PgBusinesses.create_iff huuid).mpr ⟨row_fits hregisters hfits draft _, hunused, hfree⟩
  obtain ⟨table, hcreate⟩ := hinserted
  obtain ⟨P₂, hleaves₂, hprog₂, hstate₂, -⟩ := leaves_await hprog₁ (create_quiet hquiet hcreate)
  obtain ⟨P₃, hleaves₃, hprog₃, hstate₃, -⟩ := leaves_await (c := .dateNow) hprog₂ rfl
  refine ⟨P₃, _, draft, (hleaves₁.trans hleaves₂).trans hleaves₃, rfl, hprog₃, ?_, ?_⟩
  · rw [hstate₁] at hcreate
    rw [hstate₃, hstate₂]
    exact PgBusinesses.create_rows huuid hcreate
  · rw [hstate₃, hstate₂, hstate₁]

omit hquiet hregisters hfits in
/-- An address that was taken meanwhile is an error. -/
theorem enter_taken (hprog : P.prog i = server.enter req payload)
    (htaken : payload.email ∈ P.state.table.rows.map BusinessRow.email) :
    ∃ P', Leaves i P P' ∧ P'.prog i = .throw .INTERNAL_ERROR ∧ P'.state.table = P.state.table ∧
      P'.state.drawn = P.state.drawn + 1 := by
  let draft : Draft := ⟨server.uuids P.state.drawn, server.salts P.state.drawn, P.state.clock.ms.toNat⟩
  obtain ⟨P₁, hleaves₁, hprog₁, hstate₁, -⟩ := leaves_await (c := .draw) hprog rfl
  have huuid : server.pg.uuid draft.id = some draft.id := server.uuid_uuids _
  have hrejected : P₁.state.table.create (server.router.newBusiness draft payload) = none := by
    by_contra hinserted
    obtain ⟨table, hcreate⟩ := Option.ne_none_iff_exists'.mp hinserted
    rw [hstate₁] at hcreate
    exact ((PgBusinesses.create_iff huuid).mp ⟨table, hcreate⟩).2.2 htaken
  refine ⟨_, hleaves₁.trans ⟨.single (.error i hprog₁ trivial (create_rejected hrejected)), rfl, fun j hj => ?_⟩,
    Function.update_self .., ?_, ?_⟩
  · exact Function.update_of_ne hj _ _
  · show P₁.state.table = _
    rw [hstate₁]
  · show P₁.state.drawn = _
    rw [hstate₁]

omit hregisters hfits

variable {issued : Time} {row : BusinessRow} (hcarries : server.router.Carries issued row.id req.cookie)
  (hlive : P.state.clock.ms ≤ issued.ms + SESSION_TTL_MS) (hrow : row ∈ P.state.table.rows)

include hcarries hlive hrow

/-- A live session shows its account. -/
theorem me_live (hprog : P.prog i = server.router.handler req) (hroute : req.route = .me) :
    ∃ P', Leaves i P P' ∧ P'.prog i = .ret ⟨200, none, .business (toPublic row.toBusiness)⟩ ∧
      (P'.aux i).time = some P.state.clock ∧ P'.state.table = P.state.table ∧
      P'.state.drawn = P.state.drawn := by
  have huuid := P.state.table.rows_uuid row hrow
  have hget : P.state.table.getById row.id = some (some row.toBusiness) := by
    rw [PgBusinesses.getById, huuid, Option.map_some, PgBusinesses.rowFor_eq_some.mpr ⟨hrow, rfl⟩]
    rfl
  have hcurrent : server.router.currentBusinessId P.state.clock req = some row.id := by
    rw [currentBusinessId_carries huuid hcarries, if_pos hlive]
  rw [BusinessRouter.handler, hroute] at hprog
  dsimp only at hprog
  obtain ⟨P₁, hleaves₁, hprog₁, hstate₁, haux₁⟩ := leaves_await (c := .dateNow) hprog rfl
  rw [hcurrent] at hprog₁
  obtain ⟨P₂, hleaves₂, hprog₂, hstate₂, haux₂⟩ := leaves_await hprog₁ (getById_quiet hquiet (hstate₁ ▸ hget))
  refine ⟨P₂, hleaves₁.trans hleaves₂, hprog₂, ?_, by rw [hstate₂, hstate₁], by rw [hstate₂, hstate₁]⟩
  rw [haux₂]
  show (P₁.aux i).time = _
  rw [haux₁]
  rfl

/-- A live session edits its profile. -/
theorem profile_live (hprog : P.prog i = server.router.handler req) (hroute : req.route = .profile)
    {patch : BusinessProfilePatch} (hschema : Zod.profileUpdateSchema req.body = some patch)
    (hstorable : patch.storable = true) :
    ∃ P', Leaves i P P' ∧
      P'.prog i = .ret ⟨200, none, .business (toPublic (row.coalesce patch P.state.pgClock).toBusiness)⟩ ∧
      P'.state.table.rows = P.state.table.rows.map (fun r => r.update row.id patch P.state.pgClock) ∧
      P'.state.drawn = P.state.drawn := by
  have huuid := P.state.table.rows_uuid row hrow
  have hupdate : P.state.table.update row.id patch P.state.pgClock = some
      (P.state.table.updateRows row.id patch P.state.pgClock hstorable,
        (row.coalesce patch P.state.pgClock).toBusiness) := by
    have hself : row.update row.id patch P.state.pgClock = row.coalesce patch P.state.pgClock := if_pos rfl
    rw [PgBusinesses.update, huuid, Option.bind_some, dif_pos hstorable]
    dsimp only
    rw [PgBusinesses.rowFor_updateRows, PgBusinesses.rowFor_eq_some.mpr ⟨hrow, rfl⟩, Option.map_some,
      Option.map_some, hself]
  have hcurrent : server.router.currentBusinessId P.state.clock req = some row.id := by
    rw [currentBusinessId_carries huuid hcarries, if_pos hlive]
  rw [BusinessRouter.handler, hroute] at hprog
  dsimp only at hprog
  obtain ⟨P₁, hleaves₁, hprog₁, hstate₁, -⟩ := leaves_await (c := .dateNow) hprog rfl
  rw [hcurrent, hschema] at hprog₁
  obtain ⟨P₂, hleaves₂, hprog₂, hstate₂, -⟩ := leaves_await hprog₁ (update_quiet hquiet (hstate₁ ▸ hupdate))
  rw [hstate₁] at hprog₂
  refine ⟨P₂, hleaves₁.trans hleaves₂, hprog₂, ?_, by rw [hstate₂, hstate₁]⟩
  rw [hstate₂]
  show (P₁.state.table.updateRows row.id patch P₁.state.pgClock hstorable).rows = _
  rw [hstate₁]
  rfl

end Quiet

end BusinessServer

/-! ## A shop -/

/-- The first id that is drawn. -/
def firstId : String := "00000000-0000-4000-8000-000000000000"

/-- The second. -/
def secondId : String := "00000000-0000-4000-8000-000000000001"

/-- The third. -/
def thirdId : String := "00000000-0000-4000-8000-000000000002"

/-- A salt, the same at every draw. -/
def countedSalt : Salt := ⟨[0, 1, 2, 3, 4, 5, 6, 7, 8, 9, 10, 11, 12, 13, 14, 15], rfl⟩

/-- The key of the password "password" with that salt. -/
def shopScrypt : Scrypt where
  scryptSync password salt :=
    if password = "password".toList ∧ salt = countedSalt.text then
      [221, 142, 240, 158, 162, 65, 102, 180, 100, 100, 67, 54, 80, 23, 127, 155, 13, 170, 81, 247, 230, 89,
        3, 39, 11, 191, 138, 24, 113, 21, 122, 184, 70, 105, 120, 178, 159, 61, 41, 190, 132, 181, 49, 96, 135,
        191, 67, 244, 51, 165, 158, 240, 69, 110, 110, 73, 213, 126, 3, 119, 163, 232, 91, 32]
    else List.replicate KEY_LENGTH 0
  length_scryptSync password salt := by split <;> rfl

/-- The digests under the secret "secret" of the payloads that are signed for two ids at `newYear`. -/
def shopHmac : Hmac where
  digest payload :=
    if payload = tokenPayload newYear firstId.toList then
      [215, 126, 41, 233, 107, 155, 140, 214, 187, 133, 78, 244, 98, 11, 42, 42, 207, 51, 82, 102, 40, 29, 152,
        155, 151, 50, 46, 2, 250, 12, 123, 125]
    else if payload = tokenPayload newYear secondId.toList then
      [7, 83, 188, 189, 6, 212, 129, 234, 161, 161, 5, 136, 72, 88, 67, 24, 91, 143, 8, 163, 48, 89, 183, 151,
        82, 203, 128, 147, 212, 88, 44, 50]
    else List.replicate 32 0
  length_digest payload := by split_ifs <;> rfl

/-- A server without faults, at which a text with an `@` is an address. -/
def shopServer : BusinessServer where
  router := ⟨⟨fun text => text.map Char.toLower, fun text => text.contains '@'⟩, shopHmac, shopScrypt⟩
  pg := .plain
  uuidChars_uuid := by
    intro s u h
    have hplain : (if uuidChars 0 (s.toList.map Char.toLower) = true then
      some (String.ofList (s.toList.map Char.toLower)) else none) = some u := h
    split at hplain
    · rename_i hchars
      rw [← Option.some.inj hplain, String.toList_ofList]
      exact hchars
    · cases hplain
  uuids
    | 0 => firstId
    | 1 => secondId
    | _ => thirdId
  uuid_uuids n := by
    match n with
    | 0 => decide +kernel
    | 1 => decide +kernel
    | _ + 2 =>
      show BusinessPostgres.plain.uuid thirdId = some thirdId
      decide +kernel
  salts _ := countedSalt
  faults _ := none

/-- An empty table. -/
def freshStart : AccountState shopServer.pg := ⟨.empty, newYear, by decide, 0, 0, 0⟩

/-- The body of a registration. -/
def shopBody (email : String) : Json Unit := .object [("email", .string email), ("password", .string "password"),
  ("businessName", .string "Shop"), ("businessType", .string "b2c")]

/-- A header with nothing around the pair. -/
def plainHeader : CookieHeader :=
  ⟨[], [], [], [], ⟨List.forall_mem_nil _, List.forall_mem_nil _⟩, List.forall_mem_nil _⟩

/-- The session of an id that is issued at `newYear`. -/
def shopCookie (id : String) : List Char :=
  plainHeader.text (sentPair (serializeSessionCookie (shopHmac.createSessionToken newYear id.toList) false))

theorem shopCookie_carries (id : String) : shopServer.router.Carries newYear id (some (shopCookie id)) :=
  ⟨plainHeader, false, rfl⟩

/-- Two register one address and a neighbour registers another; then the first address is registered again, its
account is visited, and the neighbour edits its own profile. -/
inductive ShopRequest where
  | registers
  | registersToo
  | joins
  | registersAgain
  | visits
  | edits
  deriving DecidableEq

/-- Two registrations of one address, one of another address, and what comes after. -/
def shopRequests : ShopRequest → HttpRequest Unit
  | .registers => ⟨.register, shopBody "Shop@mail.com", none, false⟩
  | .registersToo => ⟨.register, shopBody "shop@mail.com", none, false⟩
  | .joins => ⟨.register, shopBody "corner@mail.com", none, false⟩
  | .registersAgain => ⟨.register, shopBody "SHOP@mail.com", none, false⟩
  | .visits => ⟨.me, .null, some (shopCookie firstId), false⟩
  | .edits => ⟨.profile, .object [("description", .string "Closed")], some (shopCookie secondId), false⟩

theorem shopBody_registers (text email : String)
    (h : (shopServer.router.zod.registerSchema (shopBody text)).any (fun payload =>
      payload.email = email ∧ payload.fits shopServer.pg = true) = true) :
    ∃ payload, shopServer.router.zod.registerSchema (shopBody text) = some payload ∧ payload.email = email ∧
      payload.fits shopServer.pg = true := by
  cases hpayload : shopServer.router.zod.registerSchema (shopBody text) with
  | none =>
    rw [hpayload] at h
    cases h
  | some payload =>
    rw [hpayload] at h
    exact ⟨payload, rfl, of_decide_eq_true h⟩

theorem shopBody_fits {text : String} (email : String)
    (h : (shopServer.router.zod.registerSchema (shopBody text)).any (fun payload =>
      payload.email = email ∧ payload.fits shopServer.pg = true) = true) {payload : RegisterPayload}
    (hschema : shopServer.router.zod.registerSchema (shopBody text) = some payload) :
    payload.fits shopServer.pg = true := by
  obtain ⟨payload', hschema', -, hfits⟩ := shopBody_registers text email h
  obtain rfl := Option.some.inj (hschema.symm.trans hschema')
  exact hfits

/-- The shop and its neighbour are registered, and nobody else has begun. -/
structure Registered (P : shopServer.Serving ShopRequest) : Prop where
  reached : (shopServer.system ShopRequest).Reaches (shopServer.serve freshStart shopRequests) P
  answered : ∃ cookie account, P.prog .registers = .ret ⟨201, cookie, .business account⟩ ∧ account.id = firstId
  failed : P.prog .registersToo = .throw .INTERNAL_ERROR
  joined : ∃ cookie account, P.prog .joins = .ret ⟨201, cookie, .business account⟩ ∧ account.id = secondId
  stored : ∃ row ∈ P.state.table.rows, row.id = firstId ∧ row.email = "shop@mail.com"
  neighbour : ∃ row ∈ P.state.table.rows, row.id = secondId
  clock : P.state.clock = newYear
  drawn : P.state.drawn = 3
  begins : ∀ request, request ≠ .registers → request ≠ .registersToo → request ≠ .joins →
    P.prog request = shopServer.router.handler (shopRequests request)

/-- All three look their address up before any is stored. -/
theorem exists_registered : ∃ P, Registered P := by
  have hquiet : ∀ n, shopServer.faults n = none := fun _ => rfl
  obtain ⟨shop, hshop, hemail, hfits⟩ := shopBody_registers "Shop@mail.com" "shop@mail.com" (by decide +kernel)
  obtain ⟨again, hagain, hemail', hfits'⟩ := shopBody_registers "shop@mail.com" "shop@mail.com" (by decide +kernel)
  obtain ⟨corner, hcorner, hemail'', hfits''⟩ :=
    shopBody_registers "corner@mail.com" "corner@mail.com" (by decide +kernel)
  let P₀ : shopServer.Serving ShopRequest := shopServer.serve freshStart shopRequests
  have hbegins : ∀ request, P₀.prog request = shopServer.router.handler (shopRequests request) := fun _ => rfl
  obtain ⟨P₁, h₁, hprog₁, htable₁, hdrawn₁⟩ := BusinessServer.register_looks hquiet ⟨rfl, hshop⟩ hfits
    (hbegins .registers) List.not_mem_nil
  obtain ⟨P₂, h₂, hprog₂, htable₂, hdrawn₂⟩ := BusinessServer.register_looks hquiet ⟨rfl, hagain⟩ hfits'
    ((h₁.others .registersToo nofun).trans (hbegins _)) (htable₁ ▸ List.not_mem_nil)
  obtain ⟨P₃, h₃, hprog₃, htable₃, hdrawn₃⟩ := BusinessServer.register_looks hquiet ⟨rfl, hcorner⟩ hfits''
    ((h₂.others .joins nofun).trans ((h₁.others .joins nofun).trans (hbegins _)))
    (htable₂ ▸ htable₁ ▸ List.not_mem_nil)
  have hrows₃ : P₃.state.table.rows = [] := by
    rw [htable₃, htable₂, htable₁]
    rfl
  have hzero : P₃.state.drawn = 0 := by
    rw [hdrawn₃, hdrawn₂, hdrawn₁]
    rfl
  obtain ⟨P₄, cookie, draft, h₄, hid, hprog₄, hrows₄, hdrawn₄⟩ := BusinessServer.enter_free hquiet ⟨rfl, hshop⟩
    hfits ((h₃.others .registers nofun).trans ((h₂.others .registers nofun).trans hprog₁))
    (by rw [hrows₃]; exact List.not_mem_nil) (by rw [hrows₃]; exact List.not_mem_nil)
  rw [hzero] at hid hdrawn₄
  rw [hrows₃, List.nil_append] at hrows₄
  have hcornerFree : corner.email ∉ P₄.state.table.rows.map BusinessRow.email := by
    rw [hrows₄, List.map_singleton, List.mem_singleton, hemail'']
    show "corner@mail.com" ≠ shop.email
    rw [hemail]
    decide
  have hidFree : shopServer.uuids P₄.state.drawn ∉ P₄.state.table.rows.map BusinessRow.id := by
    rw [hrows₄, hdrawn₄, List.map_singleton, List.mem_singleton]
    show secondId ≠ draft.id
    rw [hid]
    decide
  obtain ⟨P₅, cookie', draft', h₅, hid', hprog₅, hrows₅, hdrawn₅⟩ := BusinessServer.enter_free hquiet
    ⟨rfl, hcorner⟩ hfits'' ((h₄.others .joins nofun).trans hprog₃) hcornerFree hidFree
  rw [hdrawn₄] at hid' hdrawn₅
  rw [hrows₄, List.singleton_append] at hrows₅
  have htaken : again.email ∈ P₅.state.table.rows.map BusinessRow.email := by
    rw [hrows₅, hemail', ← hemail]
    exact List.mem_cons_self
  obtain ⟨P₆, h₆, hprog₆, htable₆, hdrawn₆⟩ := BusinessServer.enter_taken
    ((h₅.others .registersToo nofun).trans ((h₄.others .registersToo nofun).trans
      ((h₃.others .registersToo nofun).trans hprog₂))) htaken
  have hrows₆ : P₆.state.table.rows = _ := htable₆ ▸ hrows₅
  have hall := ((((h₁.reached.trans h₂.reached).trans h₃.reached).trans h₄.reached).trans h₅.reached).trans
    h₆.reached
  exact ⟨P₆,
    { reached := hall
      answered := ⟨cookie, _, (h₆.others .registers nofun).trans ((h₅.others .registers nofun).trans hprog₄), hid⟩
      failed := hprog₆
      joined := ⟨cookie', _, (h₆.others .joins nofun).trans hprog₅, hid'⟩
      stored := ⟨_, hrows₆ ▸ List.mem_cons_self, hid, hemail⟩
      neighbour := ⟨_, hrows₆ ▸ List.mem_cons_of_mem _ List.mem_cons_self, hid'⟩
      clock := by rw [h₆.clock, h₅.clock, h₄.clock, h₃.clock, h₂.clock, h₁.clock]; rfl
      drawn := by rw [hdrawn₆, hdrawn₅]
      begins := fun request h h' h'' => by
        rw [h₆.others _ h', h₅.others _ h'', h₄.others _ h, h₃.others _ h'', h₂.others _ h', h₁.others _ h]
        exact hbegins request }⟩

theorem closes : Zod.profileUpdateSchema (shopRequests .edits).body =
    some { description := some (some "Closed") } := rfl

/-- Then the third registration, the neighbour's edit and the visit are served. -/
structure Visited (P P' : shopServer.Serving ShopRequest) : Prop where
  reached : (shopServer.system ShopRequest).Reaches P P'
  before : ∀ request, request ≠ .registersAgain → request ≠ .edits → request ≠ .visits →
    P'.prog request = P.prog request
  again : P'.prog .registersAgain = .ret ⟨409, none, .EMAIL_TAKEN⟩
  edited : ∃ shown, P'.prog .edits = .ret ⟨200, none, .business shown⟩ ∧ shown.id = secondId ∧
    shown.description = "Closed"
  shown : ∃ response, P'.prog .visits = .ret response ∧ (P'.aux .visits).time = some newYear
  drawn : P'.state.drawn = 3

theorem Registered.exists_visited {P : shopServer.Serving ShopRequest} (h : Registered P) :
    ∃ P', Visited P P' := by
  have hquiet : ∀ n, shopServer.faults n = none := fun _ => rfl
  obtain ⟨again, hagain, hemail, hfits⟩ := shopBody_registers "SHOP@mail.com" "shop@mail.com" (by decide +kernel)
  obtain ⟨row, hrow, hid, haddress⟩ := h.stored
  obtain ⟨neighbour, hneighbour, hid'⟩ := h.neighbour
  have hcarries : shopServer.router.Carries newYear row.id (shopRequests .visits).cookie := by
    rw [hid]
    exact shopCookie_carries firstId
  have hcarries' : shopServer.router.Carries newYear neighbour.id (shopRequests .edits).cookie := by
    rw [hid']
    exact shopCookie_carries secondId
  obtain ⟨P₁, h₁, hprog₁, htable₁, hdrawn₁⟩ := BusinessServer.register_taken hquiet ⟨rfl, hagain⟩ hfits
    (h.begins .registersAgain (by simp) (by simp) (by simp)) hrow (haddress.trans hemail.symm)
  have hclock₁ : P₁.state.clock = newYear := h₁.clock.trans h.clock
  obtain ⟨P₂, h₂, hprog₂, hrows₂, hdrawn₂⟩ := BusinessServer.profile_live hquiet hcarries'
    (by rw [hclock₁]; decide) (htable₁ ▸ hneighbour)
    ((h₁.others .edits (by simp)).trans (h.begins _ (by simp) (by simp) (by simp))) rfl closes rfl
  have hclock₂ : P₂.state.clock = newYear := h₂.clock.trans hclock₁
  have hrow₂ : row ∈ P₂.state.table.rows := by
    rw [hrows₂, htable₁]
    refine List.mem_map.mpr ⟨row, hrow, ?_⟩
    rw [BusinessRow.update, if_neg]
    rw [hid, hid']
    decide
  have hvisits : P₂.prog .visits = shopServer.router.handler (shopRequests .visits) := by
    rw [h₂.others _ (by simp), h₁.others _ (by simp), h.begins _ (by simp) (by simp) (by simp)]
  obtain ⟨P₃, h₃, hprog₃, htime₃, -, hdrawn₃⟩ := BusinessServer.me_live hquiet hcarries
    (by rw [hclock₂]; decide) hrow₂ hvisits rfl
  refine ⟨P₃,
    { reached := (h₁.reached.trans h₂.reached).trans h₃.reached
      before := fun request hagain hedits hvisit => by
        rw [h₃.others _ hvisit, h₂.others _ hedits, h₁.others _ hagain]
      again := (h₃.others .registersAgain (by simp)).trans ((h₂.others .registersAgain (by simp)).trans hprog₁)
      edited := ⟨_, (h₃.others .edits (by simp)).trans hprog₂, hid', rfl⟩
      shown := ⟨_, hprog₃, htime₃.trans (congrArg some hclock₂)⟩
      drawn := by rw [hdrawn₃, hdrawn₂, hdrawn₁, h.drawn] }⟩

end SupplyChain
