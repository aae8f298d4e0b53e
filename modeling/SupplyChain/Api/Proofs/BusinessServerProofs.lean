import SupplyChain.Api.BusinessServer
import SupplyChain.Async.Proofs.OutlineProofs
import SupplyChain.Auth.Proofs.CookiesProofs
import SupplyChain.Auth.Proofs.PasswordsProofs
import SupplyChain.Auth.Proofs.SessionProofs
import SupplyChain.Business.Proofs.BusinessStoresProofs

/-!
# Proofs: what requests ask for, and what statements do

What a request asks for is an outline of its program. What the others may do to the table in between is what
the statements may do to it: no row goes away, and its id, address, password and creation stay.
-/

namespace SupplyChain

open Async

/-! ## Sessions -/

theorem dot_notMem_of_uuidChars {i : Nat} {chars : List Char} (h : uuidChars i chars = true) : '.' ∉ chars := by
  induction chars generalizing i with
  | nil => exact List.not_mem_nil
  | cons c chars ih =>
    rw [uuidChars, Bool.and_eq_true] at h
    rintro (_ | ⟨_, hlater⟩)
    · have hc := h.1
      split at hc
      · exact absurd hc (by decide)
      · exact absurd hc (by decide)
    · exact ih h.2 hlater

section Session

variable {ν : Type} {server : BusinessServer} {req : HttpRequest ν} {id : String} {issued now : Time}

/-- The id of a business is one that a session token can hold. -/
def BusinessServer.businessId (server : BusinessServer) (id : String) (hid : server.pg.uuid id = some id) :
    BusinessId where
  text := id.toList
  ne_nil := by
    intro hnil
    rw [String.toList_eq_nil_iff] at hnil
    rw [hnil, server.pg.uuid_empty] at hid
    cases hid
  no_dot := dot_notMem_of_uuidChars (server.uuidChars_uuid hid)

/-- A session denotes its business until it expires, and none from then on. -/
theorem currentBusinessId_carries (hid : server.pg.uuid id = some id)
    (hcarries : server.router.Carries issued id req.cookie) :
    server.router.currentBusinessId now req =
      if now.ms ≤ issued.ms + SESSION_TTL_MS then some id else none := by
  obtain ⟨header, secure, hcookie⟩ := hcarries
  have htoken := parseCookies_text header (server.router.mac.createSessionToken issued id.toList)
  rw [BusinessRouter.currentBusinessId, currentBusinessId, hcookie, sentPair_serializeSessionCookie, htoken]
  have hlive := server.router.mac.verifySessionToken_createSessionToken issued now (server.businessId id hid)
  split
  · rename_i htime
    have haccepted := hlive.mpr htime
    rw [BusinessServer.businessId] at haccepted
    rw [haccepted, Option.map_some, String.ofList_toList]
  · rename_i htime
    rw [Option.map_eq_none_iff]
    cases hverified : server.router.mac.verifySessionToken now
        (some (server.router.mac.createSessionToken issued id.toList)) with
    | none => rfl
    | some x =>
      obtain ⟨e, signature, hsplit, -⟩ := Hmac.verifySessionToken_eq_some.mp hverified
      have hparts := Hmac.splitOn_createSessionToken server.router.mac issued (server.businessId id hid)
      have hx : x = id.toList := (List.cons.inj (hsplit.symm.trans hparts)).1
      exact absurd (hlive.mp (hverified.trans (congrArg some hx))) htime

theorem session_of_some (hid : server.pg.uuid id = some id) (hcarries : server.router.Carries issued id req.cookie)
    {businessId : String} (hcurrent : server.router.currentBusinessId now req = some businessId) :
    businessId = id ∧ now.ms ≤ issued.ms + SESSION_TTL_MS := by
  rw [currentBusinessId_carries hid hcarries] at hcurrent
  split at hcurrent
  · rename_i htime
    exact ⟨(Option.some.inj hcurrent).symm, htime⟩
  · cases hcurrent

theorem session_of_none (hid : server.pg.uuid id = some id) (hcarries : server.router.Carries issued id req.cookie)
    (hcurrent : server.router.currentBusinessId now req = none) : ¬ now.ms ≤ issued.ms + SESSION_TTL_MS := by
  intro htime
  rw [currentBusinessId_carries hid hcarries, if_pos htime] at hcurrent
  cases hcurrent

end Session

/-! ## The table -/

/-- The same account, with another profile maybe. -/
structure Business.SameAs (business business' : Business) : Prop where
  id : business.id = business'.id
  email : business.email = business'.email
  passwordHash : business.passwordHash = business'.passwordHash
  createdAt : business.createdAt = business'.createdAt

theorem Business.SameAs.toPublic {business business' : Business} (h : business.SameAs business') :
    (SupplyChain.toPublic business).Same (SupplyChain.toPublic business') :=
  ⟨h.id, h.email, h.createdAt⟩

theorem BusinessRow.update_sameAs (id : String) (patch : BusinessProfilePatch) (now : Nat) (row : BusinessRow) :
    (row.update id patch now).toBusiness.SameAs row.toBusiness := by
  unfold update
  split
  · exact ⟨rfl, rfl, rfl, rfl⟩
  · exact ⟨rfl, rfl, rfl, rfl⟩

namespace PgBusinesses

variable {pg : BusinessPostgres} {t t' : PgBusinesses pg} {business : Business}

/-- The account is in the table. -/
def HasAccount (t : PgBusinesses pg) (business : Business) : Prop :=
  ∃ row ∈ t.rows, row.toBusiness.SameAs business

theorem create_spec (h : t.create business = some t') :
    ∃ id, pg.uuid business.id = some id ∧ t'.rows = t.rows ++ [business.row id] := by
  unfold create at h
  split at h
  · cases h
  · rename_i id hid
    dsimp only at h
    split at h
    · obtain rfl := Option.some.inj h
      exact ⟨id, hid, rfl⟩
    · cases h

theorem update_eq {id : String} {patch : BusinessProfilePatch} {now : Nat} {updated : Business}
    (h : t.update id patch now = some (t', updated)) :
    ∃ u row, ∃ hpatch : patch.storable = true, pg.uuid id = some u ∧ t.rowFor u = some row ∧
      t' = t.updateRows u patch now hpatch ∧ updated = (row.coalesce patch now).toBusiness := by
  obtain ⟨u, row, huuid, hpatch, hrow⟩ := update_spec h
  have hself : row.update u patch now = row.coalesce patch now := if_pos (rowFor_eq_some.mp hrow).2
  rw [update, huuid, Option.bind_some, dif_pos hpatch] at h
  dsimp only at h
  rw [rowFor_updateRows, hrow, Option.map_some, Option.map_some, hself] at h
  obtain ⟨rfl, rfl⟩ := Prod.mk.inj (Option.some.inj h)
  exact ⟨u, row, hpatch, huuid, hrow, rfl, rfl⟩

theorem HasAccount.create {account : Business} (h : t.HasAccount account) (hcreate : t.create business = some t') :
    t'.HasAccount account := by
  obtain ⟨row, hrow, hsame⟩ := h
  obtain ⟨id, -, hrows⟩ := create_spec hcreate
  refine ⟨row, ?_, hsame⟩
  rw [hrows]
  exact List.mem_append_left _ hrow

theorem HasAccount.update {account updated : Business} {id : String} {patch : BusinessProfilePatch} {now : Nat}
    (h : t.HasAccount account) (hupdate : t.update id patch now = some (t', updated)) : t'.HasAccount account := by
  obtain ⟨row, hrow, hsame⟩ := h
  obtain ⟨u, -, hpatch, -, -, rfl, -⟩ := update_eq hupdate
  have hsame' := row.update_sameAs u patch now
  exact ⟨row.update u patch now, List.mem_map_of_mem hrow, hsame'.id.trans hsame.id,
    hsame'.email.trans hsame.email, hsame'.passwordHash.trans hsame.passwordHash,
    hsame'.createdAt.trans hsame.createdAt⟩

theorem getByEmail_free {email : String} (hstorable : storable email = true)
    (hfree : email ∉ t.rows.map BusinessRow.email) : t.getByEmail email = some none := by
  rw [PgBusinesses.getByEmail, if_pos hstorable, rowForEmail_eq_none.mpr hfree]
  rfl

theorem getByEmail_taken {row : BusinessRow} (hstorable : storable row.email = true) (hrow : row ∈ t.rows) :
    t.getByEmail row.email = some (some row.toBusiness) := by
  rw [PgBusinesses.getByEmail, if_pos hstorable, rowForEmail_eq_some.mpr ⟨hrow, rfl⟩]
  rfl

theorem HasAccount.getByEmail (h : t.HasAccount business) {found : Option Business}
    (hget : t.getByEmail business.email = some found) : ∃ b, found = some b ∧ b.SameAs business := by
  obtain ⟨row, hrow, hsame⟩ := h
  rw [PgBusinesses.getByEmail] at hget
  split at hget
  · rw [rowForEmail_eq_some.mpr ⟨hrow, hsame.email⟩] at hget
    exact ⟨row.toBusiness, (Option.some.inj hget).symm, hsame⟩
  · cases hget

theorem HasAccount.getById (h : t.HasAccount business) {id : String} {found : Option Business}
    (hid : pg.uuid id = some business.id) (hget : t.getById id = some found) :
    ∃ b, found = some b ∧ b.SameAs business := by
  obtain ⟨row, hrow, hsame⟩ := h
  rw [PgBusinesses.getById, hid, Option.map_some, rowFor_eq_some.mpr ⟨hrow, hsame.id⟩] at hget
  exact ⟨row.toBusiness, (Option.some.inj hget).symm, hsame⟩

theorem HasAccount.updated (h : t.HasAccount business) {id : String} {patch : BusinessProfilePatch} {now : Nat}
    {updated : Business} (hid : pg.uuid id = some business.id)
    (hupdate : t.update id patch now = some (t', updated)) :
    updated.SameAs business ∧ (toPublic updated).Has patch := by
  obtain ⟨row, hrow, hsame⟩ := h
  obtain ⟨u, row', -, huuid, hrow', -, rfl⟩ := update_eq hupdate
  obtain rfl := Option.some.inj (huuid.symm.trans hid)
  obtain rfl := Option.some.inj (hrow'.symm.trans (rowFor_eq_some.mpr ⟨hrow, hsame.id⟩))
  refine ⟨⟨hsame.id, hsame.email, hsame.passwordHash, hsame.createdAt⟩, ?_⟩
  have hgetD : ∀ {α : Type} (field : Option α) (column value : α), value ∈ field → field.getD column = value := by
    intro α field column value hvalue
    rw [Option.mem_def.mp hvalue, Option.getD_some]
  exact ⟨fun name h => hgetD _ _ name h, fun type h => hgetD _ _ type h, fun text h => hgetD _ _ text h,
    fun color h => hgetD _ _ color h⟩

end PgBusinesses

/-! ## What Postgres can store -/

theorem storable_of_hexColor {s : String} (h : hexColor s = true) : storable s = true := by
  have hs : s = String.ofList s.toList := String.ofList_toList.symm
  unfold hexColor at h
  split at h
  · rename_i digits hdigits
    obtain ⟨-, hall⟩ := Bool.and_eq_true_iff.mp h
    rw [hs, hdigits, storable_ofList]
    intro hmem
    rcases List.mem_cons.mp hmem with hhash | hdigit
    · exact absurd hhash (by decide)
    · exact absurd (List.all_eq_true.mp hall _ hdigit) (by decide)
  · cases h

theorem storable_accentColor {ν : Type} {zod : Zod} {body : Json ν} {payload : RegisterPayload}
    (h : zod.registerSchema body = some payload) : storable payload.accentColor = true := by
  obtain ⟨email, -, h⟩ := Option.bind_eq_some_iff.mp h
  obtain ⟨password, -, h⟩ := Option.bind_eq_some_iff.mp h
  obtain ⟨businessName, -, h⟩ := Option.bind_eq_some_iff.mp h
  obtain ⟨businessType, -, h⟩ := Option.bind_eq_some_iff.mp h
  obtain ⟨description, -, h⟩ := Option.bind_eq_some_iff.mp h
  obtain ⟨accentColor, hcolor, h⟩ := Option.bind_eq_some_iff.mp h
  obtain rfl := Option.some.inj h
  show storable accentColor = true
  cases hfield : Zod.field "accentColor" body with
  | none =>
    rw [hfield] at hcolor
    obtain rfl := Option.some.inj hcolor
    decide
  | some json =>
    rw [hfield] at hcolor
    cases json with
    | string s =>
      have hcheck : (if hexColor s = true then some s else none) = some accentColor := hcolor
      split at hcheck
      · rename_i hhex
        obtain rfl := Option.some.inj hcheck
        exact storable_of_hexColor hhex
      · cases hcheck
    | _ => cases hcolor

/-! ## Statements -/

namespace BusinessServer

variable {server : BusinessServer} {s s' : AccountState server.pg}

section Query

variable {α : Type} {statement : PgBusinesses server.pg → Option (PgBusinesses server.pg × α)}

theorem query_ok {a : α} (h : server.query statement s = (s', .ok a)) :
    statement s.table = some (s'.table, a) := by
  unfold query at h
  split at h
  · rename_i table a' hstatement hfault
    obtain ⟨rfl, ha⟩ := Prod.mk.inj h
    obtain rfl := Except.ok.inj ha
    exact hstatement
  · cases (Prod.mk.inj h).2
  · cases (Prod.mk.inj h).2

theorem query_table (statement : PgBusinesses server.pg → Option (PgBusinesses server.pg × α)) :
    (server.query statement s).1.table = s.table ∨
    ∃ a, statement s.table = some ((server.query statement s).1.table, a) := by
  unfold query
  split
  · rename_i table a hstatement hfault
    exact Or.inr ⟨a, hstatement⟩
  · rename_i table a hstatement hfault
    exact Or.inr ⟨a, hstatement⟩
  · exact Or.inl rfl

theorem query_drawn : (server.query statement s).1.drawn = s.drawn := by
  unfold query
  split <;> rfl

/-- A statement that nothing befalls fails only when Postgres rejects it. -/
theorem query_error (hquiet : ∀ n, server.faults n = none) {e : BusinessError}
    (h : server.query statement s = (s', .error e)) :
    statement s.table = none ∧ s'.table = s.table := by
  unfold query at h
  rw [hquiet] at h
  cases hstatement : statement s.table with
  | none =>
    rw [hstatement] at h
    obtain ⟨rfl, -⟩ := Prod.mk.inj h
    exact ⟨rfl, rfl⟩
  | some result =>
    rw [hstatement] at h
    cases (Prod.mk.inj h).2

end Query

/-- What a call may do to the table, whatever comes of the call. -/
theorem handle_table (c : BusinessCall) (s : AccountState server.pg) : (server.handle c s).1.table = s.table ∨
    (∃ business, c = .create business ∧ s.table.create business = some (server.handle c s).1.table) ∨
      ∃ id patch updated, c = .update id patch ∧
        s.table.update id patch s.pgClock = some ((server.handle c s).1.table, updated) := by
  cases c with
  | getByEmail email =>
    rcases query_table (s := s) (fun t => (t.getByEmail email).map fun found => (t, found)) with h | ⟨a, h⟩
    · exact Or.inl h
    · obtain ⟨found, -, hfound⟩ := Option.map_eq_some_iff.mp h
      exact Or.inl (congrArg Prod.fst hfound).symm
  | create business =>
    rcases query_table (s := s) (fun t => (t.create business).map fun t => (t, ())) with h | ⟨a, h⟩
    · exact Or.inl h
    · obtain ⟨table, htable, hresult⟩ := Option.map_eq_some_iff.mp h
      exact Or.inr (Or.inl ⟨business, rfl, htable.trans (congrArg some (congrArg Prod.fst hresult))⟩)
  | getById id =>
    rcases query_table (s := s) (fun t => (t.getById id).map fun found => (t, found)) with h | ⟨a, h⟩
    · exact Or.inl h
    · obtain ⟨found, -, hfound⟩ := Option.map_eq_some_iff.mp h
      exact Or.inl (congrArg Prod.fst hfound).symm
  | update id patch =>
    rcases query_table (s := s) (fun t => t.update id patch s.pgClock) with h | ⟨updated, h⟩
    · exact Or.inl h
    · exact Or.inr (Or.inr ⟨id, patch, updated, rfl, h⟩)
  | draw => exact Or.inl rfl
  | dateNow => exact Or.inl rfl

theorem handle_drawn {c : BusinessCall} (hc : c ≠ .draw) : (server.handle c s).1.drawn = s.drawn := by
  cases c with
  | getByEmail email => exact query_drawn
  | create business => exact query_drawn
  | getById id => exact query_drawn
  | update id patch => exact query_drawn
  | draw => exact absurd rfl hc
  | dateNow => rfl

theorem drawn_le_handle (c : BusinessCall) (s : AccountState server.pg) :
    s.drawn ≤ (server.handle c s).1.drawn := by
  by_cases hc : c = .draw
  · subst hc
    exact Nat.le_succ _
  · exact (handle_drawn hc).ge

theorem drawn_of_handle {c : BusinessCall} {result : Except BusinessError (BusinessCalls.Reply c)}
    (h : server.handle c s = (s', result)) (hc : c ≠ .draw) : s'.drawn = s.drawn := by
  have hafter := handle_drawn (s := s) hc
  rw [h] at hafter
  exact hafter

/-- No call takes an account away. -/
theorem hasAccount_handle {business : Business} (h : s.table.HasAccount business) (c : BusinessCall) :
    (server.handle c s).1.table.HasAccount business := by
  rcases handle_table c s with heq | ⟨created, -, hcreate⟩ | ⟨id, patch, updated, -, hupdate⟩
  · rw [heq]
    exact h
  · exact h.create hcreate
  · exact h.update hupdate

theorem getByEmail_ok {email : String} {found : Option Business}
    (h : server.handle (.getByEmail email) s = (s', .ok found)) : s.table.getByEmail email = some found := by
  unfold handle at h
  obtain ⟨a, ha, hresult⟩ := Option.map_eq_some_iff.mp (query_ok h)
  exact ha.trans (congrArg some (congrArg Prod.snd hresult))

theorem getById_ok {id : String} {found : Option Business} (h : server.handle (.getById id) s = (s', .ok found)) :
    s.table.getById id = some found := by
  unfold handle at h
  obtain ⟨a, ha, hresult⟩ := Option.map_eq_some_iff.mp (query_ok h)
  exact ha.trans (congrArg some (congrArg Prod.snd hresult))

theorem create_ok {business : Business} (h : server.handle (.create business) s = (s', .ok ())) :
    s.table.create business = some s'.table := by
  unfold handle at h
  obtain ⟨table, htable, hresult⟩ := Option.map_eq_some_iff.mp (query_ok h)
  exact htable.trans (congrArg some (congrArg Prod.fst hresult))

theorem update_ok {id : String} {patch : BusinessProfilePatch} {updated : Business}
    (h : server.handle (.update id patch) s = (s', .ok updated)) :
    s.table.update id patch s.pgClock = some (s'.table, updated) := by
  unfold handle at h
  exact query_ok h

theorem storable_email {payload : RegisterPayload} (hfits : payload.fits server.pg = true) :
    storable payload.email = true := by
  simp only [RegisterPayload.fits, List.all_cons, Bool.and_eq_true] at hfits
  exact hfits.1.1

/-- The row of a new business fits, if its payload does. -/
theorem row_fits {ν : Type} {req : HttpRequest ν} {payload : RegisterPayload}
    (hregisters : server.router.Registers req payload) (hfits : payload.fits server.pg = true) (draft : Draft)
    (id : String) :
    ((server.router.newBusiness draft payload).row id).fits server.pg = true := by
  have hcolor := storable_accentColor hregisters.2
  have hpassword := server.router.scrypt.storable_hashPassword draft.salt payload.password.toList
  simp only [RegisterPayload.fits, List.all_cons, List.all_nil, Bool.and_eq_true, and_true] at hfits
  obtain ⟨⟨hemail, hname, hdescription⟩, hindex⟩ := hfits
  simp only [BusinessRow.fits, Business.row, BusinessRouter.newBusiness, List.all_cons, List.all_nil,
    Bool.and_eq_true, and_true]
  exact ⟨⟨hemail, hpassword, hname, hdescription, hcolor⟩, hindex⟩

/-! ## What a session shows -/

section Me

variable {ν : Type} {C : Contract BusinessCalls BusinessError RequestNotes} {g : RequestNotes}
  {id : String} {R : Business → Prop}

/-- What `me` shows in a session of a business that the store is known to have. -/
theorem me_shows (req : HttpRequest ν) (hnow : ∀ g, C.pre g .dateNow) (hget : ∀ g id, C.pre g (.getById id))
    (hid : server.pg.uuid id = some id)
    (hans : ∀ g (found : Option Business), C.ans g (.getById id) found → ∃ b, found = some b ∧ R b) :
    Outline note C (fun response g => ∀ issued, server.router.Carries issued id req.cookie →
      ∃ now, g.time = some now ∧
        if now.ms ≤ issued.ms + SESSION_TTL_MS then ∃ b, R b ∧ response = ⟨200, none, .business (toPublic b)⟩
        else response = ⟨401, none, .UNAUTHENTICATED⟩) (server.router.me req) g := by
  refine Outline.await (hnow g) fun (now : Time) _ => ?_
  cases hcurrent : server.router.currentBusinessId now req with
  | none =>
    intro issued hcarries
    exact ⟨now, rfl, by rw [if_neg (session_of_none hid hcarries hcurrent)]⟩
  | some businessId =>
    refine Outline.await (hget _ businessId) fun (found : Option Business) hfound => ?_
    by_cases hsame : businessId = id
    · subst hsame
      obtain ⟨b, rfl, hb⟩ := hans _ found hfound
      intro issued hcarries
      obtain ⟨-, htime⟩ := session_of_some hid hcarries hcurrent
      exact ⟨now, rfl, by rw [if_pos htime]; exact ⟨b, hb, rfl⟩⟩
    · cases found with
      | none => exact fun issued hcarries => absurd (session_of_some hid hcarries hcurrent).1 hsame
      | some b => exact fun issued hcarries => absurd (session_of_some hid hcarries hcurrent).1 hsame

end Me

/-! ## What a request asks for -/

section Asks

variable {ι ν : Type} {req : HttpRequest ν} {g : RequestNotes}

/-- A business is created once, of a payload and with the id that was drawn; a profile is updated in a session. -/
def Asks (server : BusinessServer) (req : HttpRequest ν) (g : RequestNotes) : BusinessCall → Prop
  | .getByEmail email => g.created = none ∧ ∀ payload, server.router.Registers req payload → email = payload.email
  | .create business => g.created = none ∧ g.drafted = some business.id ∧
    server.pg.uuid business.id = some business.id ∧
    ∃ payload draft, server.router.Registers req payload ∧ business = server.router.newBusiness draft payload
  | .getById _ => g.created = none ∧ req.route ≠ .register
  | .update businessId _ => g.created = none ∧ req.route = .profile ∧
    ∃ now, server.router.currentBusinessId now req = some businessId
  | .draw => g.created = none ∧ g.drafted = none
  | .dateNow => True

/-- What a request is answered, and what it has done then. -/
inductive Outcome (server : BusinessServer) (req : HttpRequest ν) (response : HttpResponse) (g : RequestNotes) :
    Prop where
  | created (payload : RegisterPayload) (draft : Draft) (now : Time) (h : server.router.Registers req payload)
    (hcreated : g.created = some (server.router.newBusiness draft payload)) (htime : g.time = some now)
    (hresponse : response = ⟨201, some (server.router.sessionCookie now req draft.id),
      .business (toPublic (server.router.newBusiness draft payload))⟩)
  | other (hcreated : g.created = none) (hstatus : response.status ≠ 201)
    (htaken : ∀ payload, server.router.Registers req payload → response = ⟨409, none, .EMAIL_TAKEN⟩)

/-- What is drawn is an id. -/
def Answers (server : BusinessServer) : (c : BusinessCall) → BusinessCalls.Reply c → Prop
  | .draw, draft => server.pg.uuid draft.id = some draft.id
  | _, _ => True

theorem answers_of_handle {c : BusinessCall} {r : BusinessCalls.Reply c} (hc : server.handle c s = (s', .ok r)) :
    server.Answers c r := by
  cases c with
  | draw =>
    obtain rfl := Except.ok.inj (Prod.mk.inj hc).2
    exact server.uuid_uuids s.drawn
  | _ => trivial

/-- The contract of a request. -/
def contract (server : BusinessServer) (req : HttpRequest ν) :
    Contract BusinessCalls BusinessError RequestNotes where
  pre := server.Asks req
  ans _ c r := server.Answers c r
  thrown _ g := g.created = none

theorem not_registers (server : BusinessServer) {route : BusinessRoute} (hroute : req.route = route)
    (hne : route ≠ .register) (payload : RegisterPayload) : ¬ server.router.Registers req payload :=
  fun h => hne (hroute.symm.trans h.1)

theorem asks_handler : Outline note (server.contract req) (server.Outcome req) (server.router.handler req)
    ⟨none, none, none⟩ := by
  have hok : (200 : Nat) ≠ 201 := by decide
  have hcleared : (204 : Nat) ≠ 201 := by decide
  unfold BusinessRouter.handler
  cases hroute : req.route with
  | register =>
    show Outline note (server.contract req) (server.Outcome req) (server.router.register req) _
    unfold BusinessRouter.register
    cases hschema : server.router.zod.registerSchema req.body with
    | none =>
      refine .other rfl (by decide) fun payload h => ?_
      cases hschema.symm.trans h.2
    | some payload =>
      have hregisters : server.router.Registers req payload := ⟨hroute, hschema⟩
      refine Outline.await ⟨rfl, fun payload' h => ?_⟩ fun (found : Option Business) _ => ?_
      · exact congrArg RegisterPayload.email (Option.some.inj (hschema.symm.trans h.2))
      · cases found with
        | some business => exact .other rfl (by decide) fun _ _ => rfl
        | none =>
          refine Outline.await ⟨rfl, rfl⟩ fun (draft : Draft) hdraft => ?_
          refine Outline.await ⟨rfl, rfl, hdraft, payload, draft, hregisters, rfl⟩ fun _ _ => ?_
          exact Outline.await trivial fun (now : Time) _ => .created payload draft now hregisters rfl rfl rfl
  | login =>
    have hnot := not_registers server hroute nofun
    show Outline note (server.contract req) (server.Outcome req) (server.router.login req) _
    unfold BusinessRouter.login
    cases hschema : server.router.zod.loginSchema req.body with
    | none => exact .other rfl (by decide) fun payload h => absurd h (hnot payload)
    | some credentials =>
      refine Outline.await ⟨rfl, fun payload h => absurd h (hnot payload)⟩ fun (found : Option Business) _ => ?_
      cases found with
      | none => exact .other rfl (by decide) fun payload h => absurd h (hnot payload)
      | some business =>
        show Outline note (server.contract req) (server.Outcome req)
          (if server.router.scrypt.verifyPassword credentials.password.toList
            business.passwordHash.toList = true then _ else _) _
        split
        · exact Outline.await trivial fun (now : Time) _ =>
            .other rfl hok fun payload h => absurd h (hnot payload)
        · exact .other rfl (by decide) fun payload h => absurd h (hnot payload)
  | logout =>
    have hnot := not_registers server hroute nofun
    exact .other rfl hcleared fun payload h => absurd h (hnot payload)
  | me =>
    have hnot := not_registers server hroute nofun
    refine Outline.await trivial fun (now : Time) _ => ?_
    cases hcurrent : server.router.currentBusinessId now req with
    | none => exact .other rfl (by decide) fun payload h => absurd h (hnot payload)
    | some businessId =>
      refine Outline.await ⟨rfl, by rw [hroute]; exact nofun⟩ fun (found : Option Business) _ => ?_
      cases found with
      | none => exact .other rfl (by decide) fun payload h => absurd h (hnot payload)
      | some business => exact .other rfl hok fun payload h => absurd h (hnot payload)
  | profile =>
    have hnot := not_registers server hroute nofun
    refine Outline.await trivial fun (now : Time) _ => ?_
    cases hcurrent : server.router.currentBusinessId now req with
    | none => exact .other rfl (by decide) fun payload h => absurd h (hnot payload)
    | some businessId =>
      dsimp only
      cases hpatch : Zod.profileUpdateSchema req.body with
      | none => exact .other rfl (by decide) fun payload h => absurd h (hnot payload)
      | some patch =>
        refine Outline.await ⟨rfl, hroute, now, hcurrent⟩ fun (updated : Business) _ => ?_
        exact .other rfl hok fun payload h => absurd h (hnot payload)

end Asks

/-! ## What the requests have created -/

section Registry

variable {ι ν : Type} {requests : ι → HttpRequest ν} {gs gs' : ι → RequestNotes}

/-- What the requests have created is in the table, and no two have created the same. -/
structure Registry (server : BusinessServer) (requests : ι → HttpRequest ν) (s : AccountState server.pg)
    (gs : ι → RequestNotes) : Prop where
  stored : ∀ i business, (gs i).created = some business → s.table.HasAccount business
  requested : ∀ i business, (gs i).created = some business → server.pg.uuid business.id = some business.id ∧
    ∃ payload draft, server.router.Registers (requests i) payload ∧
      business = server.router.newBusiness draft payload
  apart : ∀ i j business business', i ≠ j → (gs i).created = some business →
    (gs j).created = some business' → business.id ≠ business'.id ∧ business.email ≠ business'.email

theorem registry_start : Registry server requests s fun _ => ⟨none, none, none⟩ := by
  refine ⟨?_, ?_, ?_⟩
  · intro i business h
    cases h
  · intro i business h
    cases h
  · intro i j business business' hij h
    cases h

theorem Registry.mono (h : Registry server requests s gs)
    (htable : ∀ business, s.table.HasAccount business → s'.table.HasAccount business)
    (hcreated : ∀ j, (gs' j).created = (gs j).created) : Registry server requests s' gs' where
  stored i business hb := htable business (h.stored i business ((hcreated i).symm.trans hb))
  requested i business hb := h.requested i business ((hcreated i).symm.trans hb)
  apart i j business business' hij hb hb' :=
    h.apart i j business business' hij ((hcreated i).symm.trans hb) ((hcreated j).symm.trans hb')

/-- A business that is inserted has an id and an address that no other has. -/
theorem Registry.create [DecidableEq ι] (h : Registry server requests s gs) {i : ι} {business : Business}
    (hasks : server.Asks (requests i) (gs i) (.create business))
    (hcreate : s.table.create business = some s'.table) :
    Registry server requests s' (Function.update gs i { gs i with created := some business }) := by
  obtain ⟨-, -, huuid, hpayload⟩ := hasks
  have hrows := PgBusinesses.create_rows huuid hcreate
  obtain ⟨-, hid, hemail⟩ := (PgBusinesses.create_iff huuid).mp ⟨_, hcreate⟩
  have hnew : s'.table.HasAccount business := by
    refine ⟨business.row business.id, ?_, rfl, rfl, rfl, rfl⟩
    rw [hrows]
    exact List.mem_append_right _ List.mem_cons_self
  have hother : ∀ {j : ι} {b : Business}, (gs j).created = some b →
      business.id ≠ b.id ∧ business.email ≠ b.email := by
    intro j b hb
    obtain ⟨row, hrow, hsame⟩ := h.stored j b hb
    constructor
    · intro heq
      exact hid (heq ▸ List.mem_map.mpr ⟨row, hrow, hsame.id⟩)
    · intro heq
      exact hemail (heq ▸ List.mem_map.mpr ⟨row, hrow, hsame.email⟩)
  have hat : ∀ {j : ι} {b : Business},
      (Function.update gs i { gs i with created := some business } j).created = some b →
      (j = i ∧ b = business) ∨ (j ≠ i ∧ (gs j).created = some b) := by
    intro j b hb
    by_cases hj : j = i
    · subst hj
      rw [Function.update_self] at hb
      exact Or.inl ⟨rfl, (Option.some.inj hb).symm⟩
    · rw [Function.update_of_ne hj] at hb
      exact Or.inr ⟨hj, hb⟩
  refine ⟨?_, ?_, ?_⟩
  · intro j b hb
    rcases hat hb with ⟨rfl, rfl⟩ | ⟨-, hold⟩
    · exact hnew
    · exact (h.stored j b hold).create hcreate
  · intro j b hb
    rcases hat hb with ⟨rfl, rfl⟩ | ⟨-, hold⟩
    · exact ⟨huuid, hpayload⟩
    · exact h.requested j b hold
  · intro j k b b' hjk hb hb'
    rcases hat hb with ⟨rfl, rfl⟩ | ⟨-, hold⟩
    · rcases hat hb' with ⟨rfl, -⟩ | ⟨-, hold'⟩
      · exact absurd rfl hjk
      · exact hother hold'
    · rcases hat hb' with ⟨rfl, rfl⟩ | ⟨-, hold'⟩
      · obtain ⟨hne, hne'⟩ := hother hold
        exact ⟨hne.symm, hne'.symm⟩
      · exact h.apart j k b b' hjk hold hold'

theorem note_created {g : RequestNotes} {c : BusinessCall} {r : BusinessCalls.Reply c}
    (hc : ∀ business, c ≠ .create business) : (note g c r).created = g.created := by
  cases c with
  | create business => exact absurd rfl (hc business)
  | _ => rfl

/-- A call that creates nothing leaves what was created. -/
theorem created_update [DecidableEq ι] {i : ι} {c : BusinessCall} {r : BusinessCalls.Reply c}
    (hc : ∀ business, c ≠ .create business) (j : ι) :
    (Function.update gs i (note (gs i) c r) j).created = (gs j).created := by
  by_cases hj : j = i
  · subst hj
    rw [Function.update_self, note_created hc]
  · rw [Function.update_of_ne hj]

theorem hasAccount_of_handle {c : BusinessCall} {result : Except BusinessError (BusinessCalls.Reply c)}
    (h : server.handle c s = (s', result)) {business : Business} (haccount : s.table.HasAccount business) :
    s'.table.HasAccount business := by
  have hafter := hasAccount_handle haccount c
  rw [h] at hafter
  exact hafter

theorem sound_registry [DecidableEq ι] : Sound (server.system ι)
    (fun i => server.contract (requests i)) (Registry server requests) where
  ok {s gs i c s' r} hI hp _ hc := by
    refine ⟨answers_of_handle hc, ?_⟩
    have hkeep : (∀ business, c ≠ .create business) →
        Registry server requests s' (Function.update gs i (note (gs i) c r)) := fun hcreate =>
      hI.mono (fun business => hasAccount_of_handle hc) (created_update hcreate)
    cases c with
    | create business => exact hI.create hp (create_ok hc)
    | _ => exact hkeep nofun
  error {s gs i c s' e} hI hp _ hc := by
    refine ⟨?_, hI.mono (fun business => hasAccount_of_handle hc) fun _ => rfl⟩
    cases c with
    | getByEmail email => exact hp.1
    | create business => exact hp.1
    | getById id => exact hp.1
    | update id patch => exact hp.1
    | draw => exact hp.1
    | dateNow => cases (Prod.mk.inj hc).2
  env hI he := by
    obtain ⟨clock, pgClock, h, rfl⟩ := he
    exact hI.mono (fun _ => id) fun _ => rfl

variable [DecidableEq ι] {start : AccountState server.pg} {P P' : server.Serving ι}

theorem registry_reached (hr : (server.system ι).Reaches (server.serve start requests) P) :
    Registry server requests P.state P.aux ∧
      ∀ i, Outline note (server.contract (requests i)) (server.Outcome (requests i)) (P.prog i) (P.aux i) :=
  sound_registry.reaches hr registry_start fun _ => asks_handler

/-- A request that was answered 201 has created what it shows. -/
theorem created_of_answer (hr : (server.system ι).Reaches (server.serve start requests) P) {i : ι}
    {cookie : Option (List Char)} {body : ResponseBody} (h : P.prog i = .ret ⟨201, cookie, body⟩) :
    ∃ payload draft now, server.router.Registers (requests i) payload ∧
      server.pg.uuid draft.id = some draft.id ∧
      (P.aux i).created = some (server.router.newBusiness draft payload) ∧
      cookie = some (server.router.sessionCookie now (requests i) draft.id) ∧
      body = .business (toPublic (server.router.newBusiness draft payload)) := by
  obtain ⟨hregistry, houtline⟩ := registry_reached hr
  have hi := houtline i
  rw [h] at hi
  cases hi with
  | created payload draft now hregisters hcreated htime hresponse =>
    obtain ⟨-, hcookie, hbody⟩ := HttpResponse.mk.inj hresponse
    exact ⟨payload, draft, now, hregisters, (hregistry.requested i _ hcreated).1, hcreated, hcookie, hbody⟩
  | other hcreated hstatus htaken => exact absurd rfl hstatus

end Registry

end BusinessServer

end SupplyChain
