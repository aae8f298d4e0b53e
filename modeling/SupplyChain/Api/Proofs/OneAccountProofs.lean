import SupplyChain.Api.Proofs.RegistrationProofs

/-!
# Proofs: of the requests that register one address, one succeeds

As long as the address is not in the table, a request that registers it is not refused. So when such a request is
done, the address is in the table, and somebody has created it.
-/

namespace SupplyChain

open Async

namespace BusinessServer

variable {server : BusinessServer} {ι ν : Type} {requests : ι → HttpRequest ν} {req : HttpRequest ν}
  {start s s' : AccountState server.pg} {gs gs' : ι → RequestNotes} {email : String} {bound : Nat}

/-! ## Where the rows come from -/

/-- Every row is an old one, or has been created by a request under the id that it drew. -/
structure Origins (server : BusinessServer) (start s : AccountState server.pg) (gs : ι → RequestNotes) : Prop where
  drawn : start.drawn ≤ s.drawn
  drafted : ∀ i id, (gs i).drafted = some id → ∃ n, start.drawn ≤ n ∧ n < s.drawn ∧ id = server.uuids n
  apart : ∀ i j id, i ≠ j → (gs i).drafted = some id → (gs j).drafted ≠ some id
  created : ∀ i business, (gs i).created = some business → (gs i).drafted = some business.id
  rows : ∀ row ∈ s.table.rows, (row.id ∈ start.table.rows.map BusinessRow.id ∧
      row.email ∈ start.table.rows.map BusinessRow.email) ∨
    ∃ i business, (gs i).created = some business ∧ business.id = row.id ∧ business.email = row.email

theorem origins_start : Origins server start start fun _ : ι => ⟨none, none, none⟩ := by
  refine ⟨le_refl _, ?_, ?_, ?_, fun row hrow => Or.inl ⟨List.mem_map_of_mem hrow, List.mem_map_of_mem hrow⟩⟩
  · intro i id h
    cases h
  · intro i j id hij h
    cases h
  · intro i business h
    cases h

/-- A call that neither draws nor creates leaves the origins. -/
theorem Origins.mono (h : Origins server start s gs) (hdrawn : s'.drawn = s.drawn)
    (hdrafted : ∀ j, (gs' j).drafted = (gs j).drafted) (hcreated : ∀ j, (gs' j).created = (gs j).created)
    (hrows : ∀ row ∈ s'.table.rows, ∃ row' ∈ s.table.rows, row'.id = row.id ∧ row'.email = row.email) :
    Origins server start s' gs' where
  drawn := hdrawn ▸ h.drawn
  drafted i id hid := hdrawn ▸ h.drafted i id ((hdrafted i).symm.trans hid)
  apart i j id hij hid hid' :=
    h.apart i j id hij ((hdrafted i).symm.trans hid) ((hdrafted j).symm.trans hid')
  created i business hb := (hdrafted i).trans (h.created i business ((hcreated i).symm.trans hb))
  rows row hrow := by
    obtain ⟨row', hrow', hid, hemail⟩ := hrows row hrow
    rcases h.rows row' hrow' with hold | ⟨i, business, hb, hid', hemail'⟩
    · exact Or.inl (hid ▸ hemail ▸ hold)
    · exact Or.inr ⟨i, business, (hcreated i).trans hb, hid'.trans hid, hemail'.trans hemail⟩

theorem note_drafted {g : RequestNotes} {c : BusinessCall} {r : BusinessCalls.Reply c} (hc : c ≠ .draw) :
    (note g c r).drafted = g.drafted := by
  cases c with
  | draw => exact absurd rfl hc
  | _ => rfl

variable [DecidableEq ι]

theorem drafted_update {i : ι} {c : BusinessCall} {r : BusinessCalls.Reply c} (hc : c ≠ .draw) (j : ι) :
    (Function.update gs i (note (gs i) c r) j).drafted = (gs j).drafted := by
  by_cases hj : j = i
  · subst hj
    rw [Function.update_self, note_drafted hc]
  · rw [Function.update_of_ne hj]

theorem Origins.draw (h : Origins server start s gs) {i : ι} (hi : (gs i).created = none)
    (hdistinct : ∀ n, start.drawn ≤ n → n < s.drawn → server.uuids n ≠ server.uuids s.drawn) :
    Origins server start { s with drawn := s.drawn + 1 }
      (Function.update gs i { gs i with drafted := some (server.uuids s.drawn) }) := by
  have hold : ∀ {j : ι} {id : String}, (gs j).drafted = some id → id ≠ server.uuids s.drawn := by
    intro j id hid
    obtain ⟨n, hn, hn', rfl⟩ := h.drafted j id hid
    exact hdistinct n hn hn'
  have hcreated : ∀ j, (Function.update gs i { gs i with drafted := some (server.uuids s.drawn) } j).created =
      (gs j).created :=
    created_update (c := .draw) (r := ⟨server.uuids s.drawn, server.salts s.drawn, 0⟩) nofun
  refine ⟨h.drawn.trans (Nat.le_succ _), ?_, ?_, ?_, ?_⟩
  · intro j id hid
    by_cases hj : j = i
    · subst hj
      rw [Function.update_self] at hid
      exact ⟨s.drawn, h.drawn, Nat.lt_succ_self _, (Option.some.inj hid).symm⟩
    · rw [Function.update_of_ne hj] at hid
      obtain ⟨n, hn, hn', hid⟩ := h.drafted j id hid
      exact ⟨n, hn, Nat.lt_succ_of_lt hn', hid⟩
  · intro j k id hjk hid hid'
    by_cases hj : j = i
    · subst hj
      rw [Function.update_self] at hid
      rw [Function.update_of_ne (Ne.symm hjk)] at hid'
      exact hold hid' (Option.some.inj hid).symm
    · rw [Function.update_of_ne hj] at hid
      by_cases hk : k = i
      · subst hk
        rw [Function.update_self] at hid'
        exact hold hid (Option.some.inj hid').symm
      · rw [Function.update_of_ne hk] at hid'
        exact h.apart j k id hjk hid hid'
  · intro j business hb
    rw [hcreated] at hb
    by_cases hj : j = i
    · subst hj
      cases hi.symm.trans hb
    · rw [Function.update_of_ne hj]
      exact h.created j business hb
  · intro row hrow
    rcases h.rows row hrow with hold | ⟨j, business, hb, hrest⟩
    · exact Or.inl hold
    · exact Or.inr ⟨j, business, (hcreated j).trans hb, hrest⟩

omit [DecidableEq ι] in
/-- No row has the id that a request has drawn, before that request creates its own. -/
theorem Origins.draft_unused (h : Origins server start s gs) {i : ι} {id : String}
    (hdraft : (gs i).drafted = some id) (hnone : (gs i).created = none)
    (hunused : ∀ n, start.drawn ≤ n → n < s.drawn → server.uuids n ∉ start.table.rows.map BusinessRow.id) :
    id ∉ s.table.rows.map BusinessRow.id := by
  intro hmem
  obtain ⟨row, hrow, rfl⟩ := List.mem_map.mp hmem
  rcases h.rows row hrow with ⟨hold, -⟩ | ⟨j, business, hb, hid, -⟩
  · obtain ⟨n, hn, hn', hdrawn⟩ := h.drafted i _ hdraft
    exact hunused n hn hn' (hdrawn ▸ hold)
  · have hij : i ≠ j := by
      rintro rfl
      cases hnone.symm.trans hb
    have hdraft' := h.created j business hb
    rw [hid] at hdraft'
    exact h.apart i j _ hij hdraft hdraft'

theorem Origins.create (h : Origins server start s gs) {i : ι} {business : Business}
    (hasks : server.Asks req (gs i) (.create business)) (hdrawn : s'.drawn = s.drawn)
    (hcreate : s.table.create business = some s'.table) :
    Origins server start s' (Function.update gs i { gs i with created := some business }) := by
  obtain ⟨hnone, hdraft, huuid, -⟩ := hasks
  have hdrafted : ∀ j, (Function.update gs i { gs i with created := some business } j).drafted =
      (gs j).drafted :=
    drafted_update (c := .create business) (r := ()) nofun
  refine ⟨hdrawn ▸ h.drawn, fun j id hid => hdrawn ▸ h.drafted j id ((hdrafted j).symm.trans hid),
    fun j k id hjk hid hid' => h.apart j k id hjk ((hdrafted j).symm.trans hid) ((hdrafted k).symm.trans hid'),
    ?_, ?_⟩
  · intro j b hb
    rw [hdrafted]
    by_cases hj : j = i
    · subst hj
      rw [Function.update_self] at hb
      exact Option.some.inj hb ▸ hdraft
    · rw [Function.update_of_ne hj] at hb
      exact h.created j b hb
  · intro row hrow
    rw [PgBusinesses.create_rows huuid hcreate] at hrow
    rcases List.mem_append.mp hrow with hold | hnew
    · rcases h.rows row hold with hstart | ⟨j, b, hb, hrest⟩
      · exact Or.inl hstart
      · have hj : j ≠ i := by
          rintro rfl
          cases hnone.symm.trans hb
        refine Or.inr ⟨j, b, ?_, hrest⟩
        rw [Function.update_of_ne hj]
        exact hb
    · rw [List.mem_singleton.mp hnew]
      refine Or.inr ⟨i, business, ?_, rfl, rfl⟩
      rw [Function.update_self]

/-- A statement other than an insertion keeps the ids and addresses of all rows. -/
theorem rows_of_handle {c : BusinessCall} {result : Except BusinessError (BusinessCalls.Reply c)}
    (hcreate : ∀ business, c ≠ .create business) (hc : server.handle c s = (s', result)) :
    ∀ row ∈ s'.table.rows, ∃ row' ∈ s.table.rows, row'.id = row.id ∧ row'.email = row.email := by
  intro row hrow
  have hafter : (server.handle c s).1 = s' := congrArg Prod.fst hc
  rcases handle_table c s with heq | ⟨business, rfl, -⟩ | ⟨id, patch, updated, -, hupdate⟩
  · rw [hafter] at heq
    exact ⟨row, heq ▸ hrow, rfl, rfl⟩
  · exact absurd rfl (hcreate business)
  · rw [hafter] at hupdate
    obtain ⟨u, -, hpatch, -, -, htable, -⟩ := PgBusinesses.update_eq hupdate
    rw [htable] at hrow
    obtain ⟨row', hrow', rfl⟩ := List.mem_map.mp hrow
    exact ⟨row', hrow', (row'.update_id _ _ _).symm, (row'.update_email _ _ _).symm⟩

theorem origins_ok (hdistinct : ∀ m n, start.drawn ≤ m → m < n → n < bound → server.uuids m ≠ server.uuids n)
    (h : Origins server start s gs) {i : ι} {c : BusinessCall} {r : BusinessCalls.Reply c}
    (hasks : server.Asks req (gs i) c) (hc : server.handle c s = (s', .ok r)) (hbound : s'.drawn ≤ bound) :
    Origins server start s' (Function.update gs i (note (gs i) c r)) := by
  have hdrawn := drawn_of_handle hc
  have hkeep : (∀ business, c ≠ .create business) → c ≠ .draw →
      Origins server start s' (Function.update gs i (note (gs i) c r)) := by
    intro hcreate hdraw
    exact h.mono (hdrawn hdraw) (drafted_update hdraw) (created_update hcreate) (rows_of_handle hcreate hc)
  cases c with
  | getByEmail email => exact hkeep nofun nofun
  | create business => exact h.create hasks (hdrawn nofun) (create_ok hc)
  | getById id => exact hkeep nofun nofun
  | update id patch => exact hkeep nofun nofun
  | draw =>
    obtain ⟨rfl, hr⟩ := Prod.mk.inj hc
    obtain rfl := Except.ok.inj hr
    exact h.draw hasks.1 fun n hn hn' => hdistinct n s.drawn hn hn' hbound
  | dateNow => exact hkeep nofun nofun

/-- A call that fails, though nothing befalls it, is one that Postgres rejects. -/
theorem handle_error (hquiet : ∀ n, server.faults n = none) {c : BusinessCall} {e : BusinessError}
    (hc : server.handle c s = (s', .error e)) : s'.table = s.table ∧ s'.drawn = s.drawn := by
  have hdrawn := drawn_of_handle hc
  cases c with
  | draw => cases (Prod.mk.inj hc).2
  | dateNow => cases (Prod.mk.inj hc).2
  | _ =>
    unfold handle at hc
    exact ⟨(query_error hquiet hc).2, hdrawn nofun⟩

omit [DecidableEq ι] in
theorem origins_error (hquiet : ∀ n, server.faults n = none) (h : Origins server start s gs) {c : BusinessCall}
    {e : BusinessError} (hc : server.handle c s = (s', .error e)) : Origins server start s' gs := by
  obtain ⟨htable, hdrawn⟩ := handle_error hquiet hc
  refine h.mono hdrawn (fun _ => rfl) (fun _ => rfl) fun row hrow => ⟨row, ?_, rfl, rfl⟩
  rw [← htable]
  exact hrow

/-! ## While the address is free -/

/-- More ids were drawn than the bound, or the address is taken. -/
def Over (email : String) (bound : Nat) (s : AccountState server.pg) : Prop :=
  bound < s.drawn ∨ email ∈ s.table.rows.map BusinessRow.email

theorem over_handle (c : BusinessCall) (s : AccountState server.pg) (h : Over email bound s) :
    Over email bound (server.handle c s).1 := by
  rcases h with hdrawn | htaken
  · exact Or.inl (hdrawn.trans_le (drawn_le_handle c s))
  · right
    rcases handle_table c s with heq | ⟨business, -, hcreate⟩ | ⟨id, patch, updated, -, hupdate⟩
    · rwa [heq]
    · obtain ⟨u, -, hrows⟩ := PgBusinesses.create_spec hcreate
      rw [hrows, List.map_append]
      exact List.mem_append_left _ htaken
    · obtain ⟨u, -, hpatch, -, -, htable, -⟩ := PgBusinesses.update_eq hupdate
      rwa [htable, PgBusinesses.emails_updateRows]

/-- What the calls of a request that registers the address come to while it is free. -/
def Unopposed : (c : BusinessCall) → BusinessCalls.Reply c → Prop
  | .getByEmail _, found => found = none
  | .create _, _ => False
  | _, _ => True

/-- The contract of a request while the address is free: if it registers the address it does not fail. -/
def freeContract (server : BusinessServer) (email : String) (req : HttpRequest ν) :
    Contract BusinessCalls BusinessError RequestNotes where
  pre := server.Asks req
  ans g c r := (server.contract req).ans g c r ∧ (server.Races email req → Unopposed c r)
  thrown _ g := g.created = none ∧ ¬ server.Races email req

/-- A request that registers the address is not done while the address is free. -/
theorem free_handler : Outline note (server.freeContract email req)
    (fun response g => server.Outcome req response g ∧ ¬ server.Races email req) (server.router.handler req)
    ⟨none, none, none⟩ := by
  by_cases hraces : server.Races email req
  · obtain ⟨payload, ⟨hroute, hschema⟩, hemail⟩ := hraces
    have hregisters : server.router.Registers req payload := ⟨hroute, hschema⟩
    have hraces : server.Races email req := ⟨payload, hregisters, hemail⟩
    unfold BusinessRouter.handler
    rw [hroute]
    show Outline note (server.freeContract email req) _ (server.router.register req) _
    unfold BusinessRouter.register
    rw [hschema]
    refine Outline.await ⟨rfl, fun payload' h => ?_⟩ fun (found : Option Business) hfound => ?_
    · exact congrArg RegisterPayload.email (Option.some.inj (hschema.symm.trans h.2))
    · obtain rfl := hfound.2 hraces
      refine Outline.await ⟨rfl, rfl⟩ fun (draft : Draft) hdraft => ?_
      refine Outline.await ⟨rfl, rfl, hdraft.1, payload, draft, hregisters, rfl⟩ fun _ hcreated => ?_
      exact (hcreated.2 hraces).elim
  · have hasks : Outline note (server.freeContract email req) (server.Outcome req) (server.router.handler req)
        ⟨none, none, none⟩ :=
      asks_handler.weaken (fun _ _ hpre => hpre) (fun _ _ _ _ hans => hans.1) fun _ _ hthrown => ⟨hthrown, hraces⟩
    exact hasks.mono fun _ _ houtcome => ⟨houtcome, hraces⟩

omit [DecidableEq ι] in
/-- Nothing fails of what a request asks for that registers a free address. -/
theorem ask_of_race (hquiet : ∀ n, server.faults n = none)
    (hfits : ∀ payload, server.router.Registers req payload → payload.email = email →
      payload.fits server.pg = true)
    (hunused : ∀ n, start.drawn ≤ n → n < bound → server.uuids n ∉ start.table.rows.map BusinessRow.id)
    (horigins : Origins server start s gs) {i : ι} {c : BusinessCall} (hraces : server.Races email req)
    (hasks : server.Asks req (gs i) c) (hfree : ¬ Over email bound s)
    {result : Except BusinessError (BusinessCalls.Reply c)} (hc : server.handle c s = (s', result)) :
    ∃ r, result = .ok r ∧ (Over email bound s' ∨ Unopposed c r) := by
  obtain ⟨payload, hregisters, hemail⟩ := hraces
  have hpayload := hfits payload hregisters hemail
  obtain ⟨hbound, hnot⟩ := not_or.mp hfree
  cases c with
  | getByEmail address =>
    obtain rfl : address = email := (hasks.2 payload hregisters).trans hemail
    have hget : s.table.getByEmail address = some none :=
      PgBusinesses.getByEmail_free (hemail ▸ storable_email hpayload) hnot
    cases result with
    | ok found =>
      have hfound := getByEmail_ok hc
      rw [hget] at hfound
      exact ⟨found, rfl, Or.inr (Option.some.inj hfound).symm⟩
    | error e =>
      unfold handle at hc
      have hrejected := (query_error hquiet hc).1
      rw [hget] at hrejected
      cases hrejected
  | create business =>
    obtain ⟨hnone, hdraft, huuid, payload', draft, hregisters', rfl⟩ := hasks
    obtain rfl : payload' = payload := Option.some.inj (hregisters'.2.symm.trans hregisters.2)
    cases result with
    | ok u =>
      refine ⟨u, rfl, Or.inl (Or.inr ?_)⟩
      rw [PgBusinesses.create_rows huuid (create_ok hc), List.map_append]
      exact List.mem_append_right _ (List.mem_singleton.mpr hemail.symm)
    | error e =>
      unfold handle at hc
      have hrejected := Option.map_eq_none_iff.mp (query_error hquiet hc).1
      have hrow := row_fits hregisters hpayload draft draft.id
      have hunused' := horigins.draft_unused hdraft hnone fun n hn hn' =>
        hunused n hn (lt_of_lt_of_le hn' (not_lt.mp hbound))
      have hnot' : payload'.email ∉ s.table.rows.map BusinessRow.email := by
        rw [hemail]
        exact hnot
      obtain ⟨table, htable⟩ := (PgBusinesses.create_iff (t := s.table) huuid).mpr ⟨hrow, hunused', hnot'⟩
      cases hrejected.symm.trans htable
  | getById id => exact absurd hregisters.1 hasks.2
  | update id patch => cases hregisters.1.symm.trans hasks.2.1
  | draw =>
    obtain ⟨-, rfl⟩ := Prod.mk.inj hc
    exact ⟨_, rfl, Or.inr trivial⟩
  | dateNow =>
    obtain ⟨-, rfl⟩ := Prod.mk.inj hc
    exact ⟨_, rfl, Or.inr trivial⟩

/-- While the address is free, everything has its origin, and no request that registers it fails. -/
theorem sound_free (hquiet : ∀ n, server.faults n = none)
    (hdistinct : ∀ m n, start.drawn ≤ m → m < n → n < bound → server.uuids m ≠ server.uuids n)
    (hfits : ∀ i payload, server.router.Registers (requests i) payload → payload.email = email →
      payload.fits server.pg = true)
    (hunused : ∀ n, start.drawn ≤ n → n < bound → server.uuids n ∉ start.table.rows.map BusinessRow.id) :
    Sound ((server.system ι).avoiding (Over email bound)) (fun i => server.freeContract email (requests i))
      fun s gs => Registry server requests s gs ∧ Origins server start s gs where
  ok {s gs i c s' r} hI hp hg hc := by
    have hafter : (server.handle c s).1 = s' := congrArg Prod.fst hc
    have hfree' : ¬ Over email bound s' := by
      rw [← hafter]
      exact hg.2
    have hfree : ¬ Over email bound s := fun hover => hg.2 (over_handle c s hover)
    obtain ⟨hans, hregistry⟩ :=
      (sound_registry : Sound _ _ (Registry server requests)).ok hI.1 hp trivial hc
    refine ⟨⟨hans, fun hraces => ?_⟩, hregistry,
      origins_ok hdistinct hI.2 hp hc (not_lt.mp fun hover => hfree' (Or.inl hover))⟩
    obtain ⟨r', hr', hover | hunopposed⟩ := ask_of_race hquiet (hfits i) hunused hI.2 hraces hp hfree hc
    · exact absurd hover hfree'
    · obtain rfl := Except.ok.inj hr'
      exact hunopposed
  error {s gs i c s' e} hI hp hg hc := by
    have hfree : ¬ Over email bound s := fun hover => hg.2 (over_handle c s hover)
    obtain ⟨hthrown, hregistry⟩ :=
      (sound_registry : Sound _ _ (Registry server requests)).error hI.1 hp trivial hc
    refine ⟨⟨hthrown, fun hraces => ?_⟩, hregistry, origins_error hquiet hI.2 hc⟩
    obtain ⟨r, hr, -⟩ := ask_of_race hquiet (hfits i) hunused hI.2 hraces hp hfree hc
    cases hr
  env hI he := by
    obtain ⟨⟨clock, pgClock, h, rfl⟩, -⟩ := he
    exact ⟨hI.1.mono (fun _ => id) fun _ => rfl, hI.2.mono rfl (fun _ => rfl) (fun _ => rfl)
      fun row hrow => ⟨row, hrow, rfl, rfl⟩⟩

/-- Everything in the table has its origin. -/
theorem sound_origins (hquiet : ∀ n, server.faults n = none)
    (hdistinct : ∀ m n, start.drawn ≤ m → m < n → n < bound → server.uuids m ≠ server.uuids n) :
    Sound ((server.system ι).avoiding fun s => bound < s.drawn) (fun i => server.contract (requests i))
      fun s gs => Registry server requests s gs ∧ Origins server start s gs where
  ok {s gs i c s' r} hI hp hg hc := by
    have hafter : (server.handle c s).1 = s' := congrArg Prod.fst hc
    have hbound : s'.drawn ≤ bound := by
      rw [← hafter]
      exact not_lt.mp hg.2
    obtain ⟨hans, hregistry⟩ :=
      (sound_registry : Sound _ _ (Registry server requests)).ok hI.1 hp trivial hc
    exact ⟨hans, hregistry, origins_ok hdistinct hI.2 hp hc hbound⟩
  error {s gs i c s' e} hI hp _ hc := by
    obtain ⟨hthrown, hregistry⟩ :=
      (sound_registry : Sound _ _ (Registry server requests)).error hI.1 hp trivial hc
    exact ⟨hthrown, hregistry, origins_error hquiet hI.2 hc⟩
  env hI he := by
    obtain ⟨⟨clock, pgClock, h, rfl⟩, -⟩ := he
    exact ⟨hI.1.mono (fun _ => id) fun _ => rfl, hI.2.mono rfl (fun _ => rfl) (fun _ => rfl)
      fun row hrow => ⟨row, hrow, rfl, rfl⟩⟩

variable {P : server.Serving ι}

/-- When a request that registers the address is done, it is in the table. -/
theorem taken_of_done (hr : (server.system ι).Reaches (server.serve start requests) P)
    (h : Undisturbed server requests email start P.state) {i : ι} (hraces : server.Races email (requests i))
    (hdone : Done (P.prog i)) : email ∈ P.state.table.rows.map BusinessRow.email := by
  by_contra hfree
  have hover : ¬ Over email P.state.drawn P.state := fun hover => hover.elim (lt_irrefl _) hfree
  have hr' := reaches_avoiding over_handle (fun s s' he hover => by
    obtain ⟨clock, pgClock, hclock, rfl⟩ := he
    exact hover) hr hover
  obtain ⟨-, houtlines⟩ := (sound_free h.faults h.distinct h.fits h.unused).reaches hr'
    ⟨registry_start, origins_start⟩ fun _ => free_handler
  have hi := houtlines i
  cases hprog : P.prog i with
  | ret response =>
    rw [hprog] at hi
    exact hi.2 hraces
  | throw e =>
    rw [hprog] at hi
    exact hi.2 hraces
  | call c k => exact hdone c k hprog

/-- Whoever is in the table under a new address has been created by a request that registers it. -/
theorem created_of_taken (hr : (server.system ι).Reaches (server.serve start requests) P)
    (h : Undisturbed server requests email start P.state)
    (htaken : email ∈ P.state.table.rows.map BusinessRow.email) :
    ∃ i business, (P.aux i).created = some business ∧ business.email = email := by
  have hr' := reaches_avoiding (E := fun s : AccountState server.pg => P.state.drawn < s.drawn)
    (fun c s hover => hover.trans_le (drawn_le_handle c s))
    (fun s s' he hover => by
      obtain ⟨clock, pgClock, hclock, rfl⟩ := he
      exact hover) hr (lt_irrefl _)
  obtain ⟨⟨-, horigins⟩, -⟩ := (sound_origins h.faults h.distinct).reaches hr'
    ⟨registry_start, origins_start⟩ fun _ => asks_handler
  obtain ⟨row, hrow, rfl⟩ := List.mem_map.mp htaken
  rcases horigins.rows row hrow with ⟨-, hold⟩ | ⟨i, business, hb, -, hemail⟩
  · exact absurd hold h.free
  · exact ⟨i, business, hb, hemail⟩

/-- An address belongs to one account. However many requests register at once, in whatever order they take turns
and whatever befalls their statements, no two that are answered 201 show one address or one id. If nothing but the
others can keep an address from being registered, and all requests that register it are done, then exactly one was
answered 201, and each other one was told that the address is taken, or failed. -/
theorem one_registers (hr : (server.system ι).Reaches (server.serve start requests) P) :
    (∀ i j cookie cookie' account account', P.prog i = .ret ⟨201, cookie, .business account⟩ →
      P.prog j = .ret ⟨201, cookie', .business account'⟩ →
        account.email = account'.email ∨ account.id = account'.id → i = j) ∧
      ∀ email, Undisturbed server requests email start P.state → (∃ i, server.Races email (requests i)) →
        (∀ i, server.Races email (requests i) → Done (P.prog i)) →
          ∃ i cookie account, server.Races email (requests i) ∧
            P.prog i = .ret ⟨201, cookie, .business account⟩ ∧
            ∀ j, j ≠ i → server.Races email (requests j) →
              P.prog j = .ret ⟨409, none, .EMAIL_TAKEN⟩ ∨ P.prog j = .throw .INTERNAL_ERROR := by
  obtain ⟨hregistry, houtlines⟩ := registry_reached hr
  constructor
  · intro i j cookie cookie' account account' hi hj hsame
    by_contra hij
    obtain ⟨payload, draft, -, -, -, hcreated, -, hbody⟩ := created_of_answer hr hi
    obtain ⟨payload', draft', -, -, -, hcreated', -, hbody'⟩ := created_of_answer hr hj
    obtain rfl := ResponseBody.business.inj hbody
    obtain rfl := ResponseBody.business.inj hbody'
    obtain ⟨hid, hemail⟩ := hregistry.apart i j _ _ hij hcreated hcreated'
    exact hsame.elim hemail hid
  · intro email h hsome hdone
    obtain ⟨k, hk⟩ := hsome
    obtain ⟨i, business, hcreated, hemail⟩ := created_of_taken hr h (taken_of_done hr h hk (hdone k hk))
    obtain ⟨-, payload, draft, hregisters, rfl⟩ := hregistry.requested i business hcreated
    have hraces : server.Races email (requests i) := ⟨payload, hregisters, hemail⟩
    have hi := houtlines i
    cases hprog : P.prog i with
    | call c next => exact absurd hprog (hdone i hraces c next)
    | throw e =>
      rw [hprog] at hi
      cases hcreated.symm.trans hi
    | ret response =>
      rw [hprog] at hi
      cases hi with
      | other hnone => cases hcreated.symm.trans hnone
      | created payload' draft' now _ hcreated' _ hresponse =>
        refine ⟨i, _, _, hraces, hprog.trans (congrArg Prog.ret hresponse), fun j hji hraces' => ?_⟩
        have hj := houtlines j
        cases hprog' : P.prog j with
        | call c next => exact absurd hprog' (hdone j hraces' c next)
        | throw e =>
          cases e
          exact Or.inr rfl
        | ret response' =>
          rw [hprog'] at hj
          obtain ⟨payload'', hregisters'', hemail''⟩ := hraces'
          cases hj with
          | other _ _ htaken => exact Or.inl (congrArg Prog.ret (htaken payload'' hregisters''))
          | created payload₂ draft₂ now₂ hregisters₂ hcreated₂ =>
            obtain rfl := Option.some.inj (hregisters₂.2.symm.trans hregisters''.2)
            exact absurd (hemail''.trans hemail.symm) (hregistry.apart j i _ _ hji hcreated₂ hcreated).2

end BusinessServer

/-- Of the two that have both found the address of the shop free, and a third. -/
theorem shop_registers : ∃ P : shopServer.Serving ShopRequest,
    (shopServer.system ShopRequest).Reaches (shopServer.serve freshStart shopRequests) P ∧
    ∃ request cookie account, P.prog request = .ret ⟨201, cookie, .business account⟩ ∧
      ∀ other, other ≠ request → shopServer.Races "shop@mail.com" (shopRequests other) →
        P.prog other = .ret ⟨409, none, .EMAIL_TAKEN⟩ ∨ P.prog other = .throw .INTERNAL_ERROR := by
  obtain ⟨P₀, hregistered⟩ := exists_registered
  obtain ⟨P, hvisited⟩ := hregistered.exists_visited
  have hr := hregistered.reached.trans hvisited.reached
  have hundisturbed : Undisturbed shopServer shopRequests "shop@mail.com" freshStart P.state := by
    refine ⟨fun _ => rfl, fun m n _ hmn hn => ?_, fun _ _ _ => List.not_mem_nil, List.not_mem_nil, ?_⟩
    · rw [hvisited.drawn] at hn
      interval_cases n <;> interval_cases m <;> decide
    · intro request payload' h _
      cases request with
      | registers => exact shopBody_fits "shop@mail.com" (by decide +kernel) h.2
      | registersToo => exact shopBody_fits "shop@mail.com" (by decide +kernel) h.2
      | joins => exact shopBody_fits "corner@mail.com" (by decide +kernel) h.2
      | registersAgain => exact shopBody_fits "shop@mail.com" (by decide +kernel) h.2
      | visits => cases h.1
      | edits => cases h.1
  have hdone : ∀ request, shopServer.Races "shop@mail.com" (shopRequests request) → Done (P.prog request) := by
    rintro request ⟨payload', h, -⟩
    cases request with
    | registers =>
      obtain ⟨cookie, account, hprog, -⟩ := hregistered.answered
      rw [hvisited.before .registers nofun nofun nofun, hprog]
      exact nofun
    | registersToo =>
      rw [hvisited.before .registersToo nofun nofun nofun, hregistered.failed]
      exact nofun
    | joins =>
      obtain ⟨cookie, account, hprog, -⟩ := hregistered.joined
      rw [hvisited.before .joins nofun nofun nofun, hprog]
      exact nofun
    | registersAgain =>
      rw [hvisited.again]
      exact nofun
    | visits => cases h.1
    | edits => cases h.1
  obtain ⟨payload, hschema, hemail, -⟩ := shopBody_registers "Shop@mail.com" "shop@mail.com" (by decide +kernel)
  obtain ⟨request, cookie, account, -, h⟩ := (BusinessServer.one_registers hr).2 "shop@mail.com" hundisturbed
    ⟨.registers, payload, ⟨rfl, hschema⟩, hemail⟩ hdone
  exact ⟨P, hr, request, cookie, account, h⟩

end SupplyChain
