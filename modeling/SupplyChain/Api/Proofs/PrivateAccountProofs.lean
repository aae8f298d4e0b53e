import SupplyChain.Api.Proofs.RegistrationProofs

/-!
# Proofs: only its own sessions change an account

A statement that changes a row is the update of a request in a session of that row's business.
-/

namespace SupplyChain

open Async

namespace BusinessServer

variable {server : BusinessServer} {ι ν : Type} {requests : ι → HttpRequest ν} {req : HttpRequest ν}
  {s s' : AccountState server.pg} {row : BusinessRow} {g : RequestNotes}

/-- What a lookup of the row shows. -/
def Shows (server : BusinessServer) (row : BusinessRow) : (c : BusinessCall) → BusinessCalls.Reply c → Prop
  | .getById id, found => server.pg.uuid id = some row.id → found = some row.toBusiness
  | _, _ => True

/-- The contract of a request that leaves the row alone. -/
def asideContract (server : BusinessServer) (row : BusinessRow) :
    Contract BusinessCalls BusinessError RequestNotes where
  pre _ c := ∀ id patch, c = .update id patch → server.pg.uuid id ≠ some row.id
  ans _ c r := server.Answers c r ∧ server.Shows row c r
  thrown _ _ := True

theorem row_handle {c : BusinessCall} {result : Except BusinessError (BusinessCalls.Reply c)}
    (haside : ∀ id patch, c = .update id patch → server.pg.uuid id ≠ some row.id)
    (hc : server.handle c s = (s', result)) (hrow : row ∈ s.table.rows) : row ∈ s'.table.rows := by
  have hafter : (server.handle c s).1 = s' := congrArg Prod.fst hc
  rw [← hafter]
  rcases handle_table c s with heq | ⟨business, -, hcreate⟩ | ⟨id, patch, updated, rfl, hupdate⟩
  · rw [heq]
    exact hrow
  · obtain ⟨u, -, hrows⟩ := PgBusinesses.create_spec hcreate
    rw [hrows]
    exact List.mem_append_left _ hrow
  · obtain ⟨u, -, hpatch, huuid, -, htable, -⟩ := PgBusinesses.update_eq hupdate
    have hne : row.id ≠ u := by
      rintro rfl
      exact haside id patch rfl huuid
    rw [htable]
    exact List.mem_map.mpr ⟨row, hrow, if_neg hne⟩

theorem sound_aside [DecidableEq ι] :
    Sound (server.system ι) (fun _ => server.asideContract row) fun s _ => row ∈ s.table.rows where
  ok {s gs i c s' r} hI hp _ hc := by
    refine ⟨⟨answers_of_handle hc, ?_⟩, row_handle hp hc hI⟩
    cases c with
    | getById id =>
      intro hid
      have hget := getById_ok hc
      rw [PgBusinesses.getById, hid, Option.map_some, PgBusinesses.rowFor_eq_some.mpr ⟨hI, rfl⟩] at hget
      exact (Option.some.inj hget).symm
    | _ => trivial
  error hI hp _ hc := ⟨trivial, row_handle hp hc hI⟩
  env hI he := by
    obtain ⟨clock, pgClock, h, rfl⟩ := he
    exact hI

/-- What is left of a request that is done, or that cannot edit the profile. -/
theorem aside_of_asks {p : BusinessHandler HttpResponse} {Q : HttpResponse → RequestNotes → Prop}
    (hasks : Outline note (server.contract req) (server.Outcome req) p g)
    (haside : server.Edits req row.id → Done p) (hQ : ∀ response g, Q response g) :
    Outline note (server.asideContract row) Q p g := by
  by_cases hedits : server.Edits req row.id
  · cases p with
    | ret response => exact hQ response g
    | throw e => trivial
    | call c k => exact absurd rfl (haside hedits c k)
  · refine (hasks.mono fun response g _ => hQ response g).weaken (fun g c hp id patch hc huuid => ?_)
      (fun _ _ _ _ hans => hans.1) fun _ _ _ => trivial
    subst hc
    obtain ⟨-, hroute, now, hcurrent⟩ := hp
    exact hedits ⟨hroute, now, id, hcurrent, huuid⟩

variable [DecidableEq ι] {start : AccountState server.pg} {P P' : server.Serving ι}

/-- An account is private. When all requests are done that edit a profile in a session of its business, its row
stays as it is, whatever all other requests do and however statements fail, and what begins then in one of its
sessions and returns shows just that row, as long as the session has not expired. A request whose own statement
fails does not return: it is answered 500. -/
theorem account_private (hr : (server.system ι).Reaches (server.serve start requests) P)
    (hr' : (server.system ι).Reaches P P') (hrow : row ∈ P.state.table.rows)
    (hquiet : ∀ i, server.Edits (requests i) row.id → Done (P.prog i)) :
    row ∈ P'.state.table.rows ∧ ∀ i response issued, P.prog i = server.router.handler (requests i) →
      P'.prog i = .ret response → (requests i).route = .me →
      server.router.Carries issued row.id (requests i).cookie → ∃ now, (P'.aux i).time = some now ∧
        response = if now.ms ≤ issued.ms + SESSION_TTL_MS then ⟨200, none, .business (toPublic row.toBusiness)⟩
          else ⟨401, none, .UNAUTHENTICATED⟩ := by
  obtain ⟨-, houtlines⟩ := registry_reached hr
  have hid := P.state.table.rows_uuid row hrow
  have haside := sound_aside.reaches hr' hrow
    (Q := fun i response g => P.prog i = server.router.handler (requests i) → (requests i).route = .me →
      ∀ issued, server.router.Carries issued row.id (requests i).cookie → ∃ now, g.time = some now ∧
        response = if now.ms ≤ issued.ms + SESSION_TTL_MS then ⟨200, none, .business (toPublic row.toBusiness)⟩
          else ⟨401, none, .UNAUTHENTICATED⟩)
    fun i => by
      by_cases hbegins : P.prog i = server.router.handler (requests i) ∧ (requests i).route = .me
      · obtain ⟨hprog, hroute⟩ := hbegins
        have hme := me_shows (C := server.asideContract row) (g := P.aux i)
          (R := fun b => b = row.toBusiness) (requests i) (fun _ _ _ => nofun) (fun _ _ _ _ => nofun) hid
          fun _ found hfound => ⟨_, hfound.2 hid, rfl⟩
        rw [hprog, BusinessRouter.handler, hroute]
        refine hme.mono fun response g h _ _ issued hcarries => ?_
        obtain ⟨now, htime, hanswer⟩ := h issued hcarries
        refine ⟨now, htime, ?_⟩
        split
        · rename_i hlive
          rw [if_pos hlive] at hanswer
          obtain ⟨b, rfl, hresponse⟩ := hanswer
          exact hresponse
        · rename_i hlive
          rwa [if_neg hlive] at hanswer
      · exact aside_of_asks (houtlines i) (hquiet i) fun _ _ hprog hroute => absurd ⟨hprog, hroute⟩ hbegins
  refine ⟨haside.1, fun i response issued hbegins hreturned hroute hcarries => ?_⟩
  have hi := haside.2 i
  rw [hreturned] at hi
  exact hi hbegins hroute issued hcarries

end BusinessServer

/-- Of the shop, which stays as it is when the neighbour edits its own profile. -/
theorem shop_private : ∃ (P P' : shopServer.Serving ShopRequest) (row : BusinessRow), Registered P ∧ Visited P P' ∧
    row ∈ P.state.table.rows ∧ row ∈ P'.state.table.rows ∧
      P'.prog .visits = .ret ⟨200, none, .business (toPublic row.toBusiness)⟩ := by
  obtain ⟨P, hregistered⟩ := exists_registered
  obtain ⟨P', hvisited⟩ := hregistered.exists_visited
  obtain ⟨row, hrow, hid, -⟩ := hregistered.stored
  have hquiet : ∀ request, shopServer.Edits (shopRequests request) row.id → Done (P.prog request) := by
    rintro request ⟨hroute, now, businessId, hcurrent, huuid⟩
    cases request with
    | edits =>
      have hsecond : shopServer.pg.uuid secondId = some secondId := shopServer.uuid_uuids 1
      obtain ⟨rfl, -⟩ := session_of_some hsecond (shopCookie_carries secondId) hcurrent
      rw [hid, hsecond] at huuid
      exact absurd (Option.some.inj huuid) (by decide)
    | _ => cases hroute
  obtain ⟨hkept, hshown⟩ := BusinessServer.account_private hregistered.reached hvisited.reached hrow hquiet
  obtain ⟨response, hresponse, htime⟩ := hvisited.shown
  obtain ⟨now, hnow, hanswer⟩ := hshown .visits response newYear (hregistered.begins .visits nofun nofun nofun)
    hresponse rfl (by rw [hid]; exact shopCookie_carries firstId)
  obtain rfl := Option.some.inj (htime.symm.trans hnow)
  rw [if_pos (by decide)] at hanswer
  exact ⟨P, P', row, hregistered, hvisited, hrow, hkept, hresponse.trans (congrArg Prog.ret hanswer)⟩

end SupplyChain
