import SupplyChain.Api.Proofs.RegistrationProofs

/-!
# Proofs: an account lasts

Once there is an account, the replies of the store tell of it, and so do the answers to what begins afterwards.
-/

namespace SupplyChain

open Async

namespace BusinessServer

/-! ## Once there is an account -/

section Kept

variable {server : BusinessServer} {ι ν : Type} {req : HttpRequest ν} {business : Business}
  {payload : RegisterPayload} {draft : Draft}

/-- What the replies are, once a business has its account. -/
def Knows (server : BusinessServer) (business : Business) (_ : RequestNotes) :
    (c : BusinessCall) → BusinessCalls.Reply c → Prop
  | .getByEmail email, found => email = business.email → ∃ b, found = some b ∧ b.SameAs business
  | .getById id, found => server.pg.uuid id = some business.id → ∃ b, found = some b ∧ b.SameAs business
  | .update id patch, updated =>
    server.pg.uuid id = some business.id → updated.SameAs business ∧ (toPublic updated).Has patch
  | _, _ => True

theorem sound_hasAccount [DecidableEq ι] : Sound (server.system ι)
    (fun _ => .free (server.Knows business)) fun s _ => s.table.HasAccount business where
  ok {s gs i c s' r} hI _ _ hc := by
    refine ⟨?_, hasAccount_of_handle hc hI⟩
    cases c with
    | getByEmail email =>
      intro hemail
      subst hemail
      exact hI.getByEmail (getByEmail_ok hc)
    | create created => trivial
    | getById id => exact fun hid => hI.getById hid (getById_ok hc)
    | update id patch => exact fun hid => hI.updated hid (update_ok hc)
    | draw => trivial
    | dateNow => trivial
  error hI _ _ hc := ⟨trivial, hasAccount_of_handle hc hI⟩
  env hI he := by
    obtain ⟨clock, pgClock, h, rfl⟩ := he
    exact hI

/-- The outline of a request whose replies know of the account. -/
abbrev KeptOutline {α : Type} (server : BusinessServer) (business : Business) (Q : α → RequestNotes → Prop)
    (p : BusinessHandler α) (g : RequestNotes) : Prop :=
  Outline note (.free (server.Knows business)) Q p g

variable {g : RequestNotes}

theorem kept_register (hemail : business.email = payload.email) : server.KeptOutline business
    (fun response _ => ∀ again, server.router.zod.registerSchema req.body = some again →
      again.email = payload.email → response = ⟨409, none, .EMAIL_TAKEN⟩) (server.router.register req) g := by
  unfold BusinessRouter.register
  cases hschema : server.router.zod.registerSchema req.body with
  | none =>
    intro again hagain
    cases hagain
  | some again' =>
    refine Outline.await trivial fun found hfound => ?_
    by_cases hsame : again'.email = payload.email
    · obtain ⟨b, rfl, -⟩ := hfound (hsame.trans hemail.symm)
      exact fun _ _ _ => rfl
    · refine Outline.free (fun response _ again hagain h => ?_) _ _
      obtain rfl := Option.some.inj hagain
      exact absurd h hsame

theorem kept_login :
    let business := server.router.newBusiness draft payload
    server.KeptOutline business
      (fun response g => ∀ credentials, server.router.zod.loginSchema req.body = some credentials →
        credentials.email = payload.email →
          if server.router.scrypt.scryptSync credentials.password.toList draft.salt.text =
              server.router.scrypt.scryptSync payload.password.toList draft.salt.text then
            ∃ now shown, g.time = some now ∧ shown.Same (toPublic business) ∧
              response = ⟨200, some (server.router.sessionCookie now req draft.id), .business shown⟩
          else response = ⟨401, none, .INVALID_CREDENTIALS⟩) (server.router.login req) g := by
  intro business
  unfold BusinessRouter.login
  cases hschema : server.router.zod.loginSchema req.body with
  | none =>
    intro credentials hcredentials
    cases hcredentials
  | some credentials' =>
    refine Outline.await trivial fun found hfound => ?_
    by_cases hsame : credentials'.email = payload.email
    · obtain ⟨b, rfl, hb⟩ := hfound hsame
      have hverify := server.router.scrypt.verifyPassword_hashPassword draft.salt payload.password.toList
        credentials'.password.toList
      have hhash : b.passwordHash.toList =
          server.router.scrypt.hashPassword draft.salt payload.password.toList := by
        rw [hb.passwordHash]
        exact String.toList_ofList
      rw [← hhash] at hverify
      show server.KeptOutline business _ (if server.router.scrypt.verifyPassword credentials'.password.toList
        b.passwordHash.toList = true then _ else _) _
      split
      · rename_i hverified
        refine Outline.await trivial fun now _ credentials hcredentials _ => ?_
        obtain rfl := Option.some.inj hcredentials
        rw [if_pos (hverify.mp hverified)]
        exact ⟨now, toPublic b, rfl, hb.toPublic, by rw [hb.id]; rfl⟩
      · rename_i hverified
        intro credentials hcredentials _
        obtain rfl := Option.some.inj hcredentials
        rw [if_neg (mt hverify.mpr hverified)]
    · refine Outline.free (fun response _ credentials hcredentials h => ?_) _ _
      obtain rfl := Option.some.inj hcredentials
      exact absurd h hsame

theorem kept_me (hid : server.pg.uuid business.id = some business.id) : server.KeptOutline business
    (fun response g => ∀ issued, server.router.Carries issued business.id req.cookie →
      ∃ now, g.time = some now ∧
        if now.ms ≤ issued.ms + SESSION_TTL_MS then
          ∃ shown, shown.Same (toPublic business) ∧ response = ⟨200, none, .business shown⟩
        else response = ⟨401, none, .UNAUTHENTICATED⟩) (server.router.me req) g := by
  have hshows := me_shows (C := .free (server.Knows business)) (g := g) req (fun _ => trivial)
    (fun _ _ => trivial) hid fun _ found hfound => hfound hid
  refine hshows.mono fun response g' h issued hcarries => ?_
  obtain ⟨now, htime, hanswer⟩ := h issued hcarries
  refine ⟨now, htime, ?_⟩
  split
  · rename_i hlive
    rw [if_pos hlive] at hanswer
    obtain ⟨b, hb, hresponse⟩ := hanswer
    exact ⟨toPublic b, hb.toPublic, hresponse⟩
  · rename_i hlive
    rwa [if_neg hlive] at hanswer

theorem kept_profile (hid : server.pg.uuid business.id = some business.id) : server.KeptOutline business
    (fun response g => ∀ issued, server.router.Carries issued business.id req.cookie →
      ∃ now, g.time = some now ∧
        if now.ms ≤ issued.ms + SESSION_TTL_MS then
          (Zod.profileUpdateSchema req.body = none → response = ⟨400, none, .INVALID_PAYLOAD⟩) ∧
            ∀ patch, Zod.profileUpdateSchema req.body = some patch →
              ∃ shown, shown.Same (toPublic business) ∧ shown.Has patch ∧ response = ⟨200, none, .business shown⟩
        else response = ⟨401, none, .UNAUTHENTICATED⟩) (server.router.profile req) g := by
  refine Outline.await trivial fun (now : Time) _ => ?_
  cases hcurrent : server.router.currentBusinessId now req with
  | none =>
    intro issued hcarries
    exact ⟨now, rfl, by rw [if_neg (session_of_none hid hcarries hcurrent)]⟩
  | some businessId =>
    dsimp only
    cases hpatch : Zod.profileUpdateSchema req.body with
    | none =>
      intro issued hcarries
      obtain ⟨-, htime⟩ := session_of_some hid hcarries hcurrent
      exact ⟨now, rfl, by rw [if_pos htime]; exact ⟨fun _ => rfl, nofun⟩⟩
    | some patch =>
      refine Outline.await trivial fun (updated : Business) hupdated => ?_
      intro issued hcarries
      obtain ⟨rfl, htime⟩ := session_of_some hid hcarries hcurrent
      obtain ⟨hsame, hhas⟩ := hupdated hid
      refine ⟨now, rfl, ?_⟩
      rw [if_pos htime]
      refine ⟨nofun, fun patch' hpatch' => ?_⟩
      obtain rfl := Option.some.inj hpatch'
      exact ⟨toPublic updated, hsame.toPublic, hhas, rfl⟩

/-- What a request that begins is answered, as far as it knows the account. -/
theorem kept_handler (hid : server.pg.uuid draft.id = some draft.id) :
    let business := server.router.newBusiness draft payload
    server.KeptOutline business (fun response g =>
      AnsweredWith server.router payload draft.salt (toPublic business) req g.time response)
      (server.router.handler req) g := by
  intro business
  unfold BusinessRouter.handler
  have helse : ∀ {route route' : BusinessRoute} {p : Prop}, req.route = route →
      req.route = route' → route ≠ route' → p := fun hroute hroute' hne => absurd (hroute.symm.trans hroute') hne
  cases hroute : req.route with
  | register =>
    exact (kept_register rfl).mono fun _ _ hkept => ⟨fun again hagain => hkept again hagain.2,
      fun _ h => helse hroute h nofun, fun _ h => helse hroute h nofun, fun _ h => helse hroute h nofun⟩
  | login =>
    exact kept_login.mono fun _ _ hkept => ⟨fun _ hagain => helse hroute hagain.1 nofun,
      fun credentials _ => hkept credentials, fun _ h => helse hroute h nofun, fun _ h => helse hroute h nofun⟩
  | logout =>
    exact ⟨fun _ hagain => helse hroute hagain.1 nofun, fun _ h => helse hroute h nofun,
      fun _ h => helse hroute h nofun, fun _ h => helse hroute h nofun⟩
  | me =>
    exact (kept_me hid).mono fun _ _ hkept => ⟨fun _ hagain => helse hroute hagain.1 nofun,
      fun _ h => helse hroute h nofun, fun issued _ => hkept issued, fun _ h => helse hroute h nofun⟩
  | profile =>
    exact (kept_profile hid).mono fun _ _ hkept => ⟨fun _ hagain => helse hroute hagain.1 nofun,
      fun _ h => helse hroute h nofun, fun _ h => helse hroute h nofun, fun issued _ => hkept issued⟩

end Kept

variable {server : BusinessServer} {ι ν : Type} [DecidableEq ι] {requests : ι → HttpRequest ν}
  {start : AccountState server.pg} {P P' : server.Serving ι}

/-- An account lasts. Once a registration was answered 201, a request that begins afterwards finds it: nobody
registers its address again, it is logged in with its password, and its sessions show it and edit its profile
until they expire. This is so whatever the other requests do meanwhile, and however their statements fail. A
request whose own statement fails does not return: it is answered 500, and nothing is said of it. -/
theorem accounts_last (hr : (server.system ι).Reaches (server.serve start requests) P)
    (hr' : (server.system ι).Reaches P P') {i : ι} {cookie : Option (List Char)} {account : PublicBusiness}
    (h : P.prog i = .ret ⟨201, cookie, .business account⟩) :
    ∃ payload salt issued, server.router.Registers (requests i) payload ∧ account.email = payload.email ∧
      cookie = some (server.router.sessionCookie issued (requests i) account.id) ∧
      ∀ j response, P.prog j = server.router.handler (requests j) → P'.prog j = .ret response →
        AnsweredWith server.router payload salt account (requests j) (P'.aux j).time response := by
  obtain ⟨payload, draft, issued, hregisters, hid, hcreated, hcookie, hbody⟩ := created_of_answer hr h
  obtain rfl := ResponseBody.business.inj hbody
  have hstored := (registry_reached hr).1.stored i _ hcreated
  refine ⟨payload, draft.salt, issued, hregisters, rfl, hcookie, fun j response hbegins hreturned => ?_⟩
  have houtline := (sound_hasAccount.reaches hr' hstored
    (Q := fun j response g => P.prog j = server.router.handler (requests j) → AnsweredWith server.router payload
      draft.salt (toPublic (server.router.newBusiness draft payload)) (requests j) g.time response)
    fun j => by
      by_cases hj : P.prog j = server.router.handler (requests j)
      · rw [hj]
        exact (kept_handler hid).mono fun _ _ hanswer _ => hanswer
      · exact Outline.free (fun _ _ hbegins => absurd hbegins hj) _ _).2 j
  rw [hreturned] at houtline
  exact houtline hbegins

end BusinessServer

/-- Of the shop that is registered, is not registered again afterwards, and is shown. -/
theorem shop_lasts : ∃ P P' : shopServer.Serving ShopRequest, Registered P ∧ Visited P P' ∧
    P'.prog .registersAgain = .ret ⟨409, none, .EMAIL_TAKEN⟩ ∧
    ∃ shown, P'.prog .visits = .ret ⟨200, none, .business shown⟩ ∧ shown.id = firstId := by
  obtain ⟨P, hregistered⟩ := exists_registered
  obtain ⟨P', hvisited⟩ := hregistered.exists_visited
  obtain ⟨cookie, account, hprog, hid⟩ := hregistered.answered
  obtain ⟨payload, salt, issued, ⟨-, hschema⟩, -, -, hanswers⟩ :=
    shopServer.accounts_last hregistered.reached hvisited.reached hprog
  obtain ⟨again, hagain, hemail, -⟩ := shopBody_registers "SHOP@mail.com" "shop@mail.com" (by decide +kernel)
  obtain ⟨first, hfirst, hemail', -⟩ := shopBody_registers "Shop@mail.com" "shop@mail.com" (by decide +kernel)
  obtain rfl := Option.some.inj (hfirst.symm.trans hschema)
  refine ⟨P, P', hregistered, hvisited, ?_, ?_⟩
  · have hanswer := hanswers _ _ (hregistered.begins .registersAgain nofun nofun nofun) hvisited.again
    rw [hvisited.again, hanswer.register again ⟨rfl, hagain⟩ (hemail.trans hemail'.symm)]
  · obtain ⟨response, hresponse, htime⟩ := hvisited.shown
    have hanswer := hanswers _ response (hregistered.begins .visits nofun nofun nofun) hresponse
    obtain ⟨now, hnow, hme⟩ := hanswer.me newYear rfl (by rw [hid]; exact shopCookie_carries firstId)
    obtain rfl := Option.some.inj (htime.symm.trans hnow)
    rw [if_pos (by decide)] at hme
    obtain ⟨shown, hsame, rfl⟩ := hme
    exact ⟨shown, hresponse, hsame.1.trans hid⟩

end SupplyChain
