import SupplyChain.Async.Proofs.ExecProofs
import SupplyChain.Async.Proofs.OutlineProofs
import SupplyChain.Inventory.Proofs.FrameProofs
import SupplyChain.Orders.Holds
import SupplyChain.Orders.Outcomes
import SupplyChain.Orders.Proofs.OrderStoreProofs
import SupplyChain.Orders.Proofs.RunProofs

/-!
# Proofs: a commit succeeds if the reservation was kept until then

The deadline of a reservation, less the time since its grant, is the clock plus its time to live, until
somebody resolves it.
-/

namespace SupplyChain

open Async InventoryService SagaOrchestrator

/-! ## One reservation and the record -/

section Record

variable {id : ReservationId} {tl : Timeline} {redis redis' : Redis} {h : Happening}

theorem since_cons_of_grants (hg : h.grants id = true) : Timeline.since id (h :: tl) = [] := by
  simp [Timeline.since, hg]

theorem since_cons (hg : h.grants id = false) :
    Timeline.since id (h :: tl) = h :: Timeline.since id tl := by
  simp [Timeline.since, hg]

theorem unresolved_cons (hg : h.grants id = false) (hr : h.resolves id = false) :
    Timeline.Unresolved (h :: tl) id ↔ tl.Unresolved id := by
  unfold Timeline.Unresolved
  rw [since_cons hg]
  simp [hr]

theorem elapsed_cons (tl : Timeline) : Timeline.elapsed (h :: tl) = h.ms + Timeline.elapsed tl := by
  simp [Timeline.elapsed]

/-- A reservation that is tracked is live exactly if it was kept. -/
theorem Tracked.held_iff (h : Tracked id tl redis) : (held redis id).isSome = true ↔ tl.Kept id := by
  unfold Timeline.Kept
  rcases h with ⟨hun, qty, deadline, hentry, hclock⟩ | ⟨hres, hnone⟩
  · have hheld : (held redis id).isSome = true ↔ redis.now < deadline := by
      rw [held, Redis.lookup, hentry, Option.filter_some, Entry.live_some]
      by_cases hlt : redis.now < deadline <;> simp [hlt]
    rw [hheld]
    constructor
    · intro hlt
      exact ⟨by omega, hun⟩
    · rintro ⟨hlt, -⟩
      omega
  · rw [hnone]
    constructor
    · intro hsome
      cases hsome
    · rintro ⟨-, hun⟩
      exact absurd hun hres

theorem tracked_grant (hg : h.grants id = true) (qty : Int)
    (hentry : redis.entries (reservationKey id) = some ⟨qty, some (redis.now + Timeline.ttl)⟩) :
    Tracked id (h :: tl) redis := by
  refine Or.inl ⟨?_, qty, _, hentry, ?_⟩
  · intro h' hmem
    rw [since_cons_of_grants hg] at hmem
    cases hmem
  · rw [since_cons_of_grants hg]
    rfl

/-- What leaves the key alone and takes no time. -/
theorem Tracked.keeps (ht : Tracked id tl redis) (hg : h.grants id = false)
    (hr : h.resolves id = false) (hms : h.ms = 0) (hk : redis.Keeps (reservationKey id) redis') :
    Tracked id (h :: tl) redis' := by
  rcases ht with ⟨hun, qty, deadline, hentry, hclock⟩ | ⟨hres, hnone⟩
  · refine Or.inl ⟨(unresolved_cons hg hr).mpr hun, qty, deadline, hk.entries.trans hentry, ?_⟩
    rw [since_cons hg, elapsed_cons, hms, hk.now]
    omega
  · refine Or.inr ⟨fun hun => hres ((unresolved_cons hg hr).mp hun), ?_⟩
    rw [held, hk.lookup]
    exact hnone

theorem Tracked.elapse (ht : Tracked id tl redis) (ms : Nat) :
    Tracked id (.other (.elapse ms) :: tl) (redis.elapse ms) := by
  rcases ht with ⟨hun, qty, deadline, hentry, hclock⟩ | ⟨hres, hnone⟩
  · refine Or.inl ⟨(unresolved_cons rfl rfl).mpr hun, qty, deadline, hentry, ?_⟩
    rw [since_cons rfl, elapsed_cons]
    simp only [Happening.ms, Redis.elapse]
    omega
  · refine Or.inr ⟨fun hun => hres ((unresolved_cons rfl rfl).mp hun), ?_⟩
    -- what is past its deadline stays past it
    unfold held Redis.lookup at hnone ⊢
    cases he : redis.entries (reservationKey id) with
    | none => simp [Redis.elapse, he]
    | some e =>
      rw [he] at hnone
      cases hd : e.expireAt with
      | none => simp [Option.filter_some, Entry.live, hd] at hnone
      | some deadline =>
        have hpast : deadline ≤ redis.now := by simpa [Option.filter_some, Entry.live, hd] using hnone
        have hdead : ¬ redis.now + ms < deadline := by omega
        simp [Redis.elapse, he, Option.filter_some, Entry.live, hd, hdead]

theorem tracked_resolved (hg : h.grants id = false) (hr : h.resolves id = true)
    (hnone : held redis id = none) : Tracked id (h :: tl) redis := by
  refine Or.inr ⟨fun hun => ?_, hnone⟩
  have hmem : h ∈ Timeline.since id (h :: tl) := by
    rw [since_cons hg]
    exact List.mem_cons_self
  rw [hun h hmem] at hr
  cases hr

/-- After an operation of others. -/
theorem Tracked.other (ht : Tracked id tl redis) (op : Op)
    (hop : ∀ w s qty ttl, op ≠ .reserve w s qty ttl id) :
    Tracked id (.other op :: tl) (op.run redis).1 := by
  have hstock : ∀ w s, reservationKey id ≠ stockKey w s := fun w s =>
    (stockKey_ne_reservationKey w s id).symm
  have hkey : ∀ {x}, x ≠ id → reservationKey id ≠ reservationKey x := fun hne =>
    reservationKey_inj.not.mpr hne.symm
  cases op with
  | elapse ms => exact ht.elapse ms
  | setStock w s qty =>
    have hkeeps : redis.Keeps (reservationKey id) (setStock redis w s qty) := by
      refine ⟨?_, rfl⟩
      rw [setStock, Redis.set, Redis.entries_put, if_neg (hstock w s)]
    exact ht.keeps rfl rfl rfl hkeeps
  | reserve w s qty ttl x =>
    have hne : x ≠ id := by
      rintro rfl
      exact hop w s qty ttl rfl
    exact ht.keeps rfl rfl rfl (reserve_keeps redis qty ttl (hstock w s) (hkey hne))
  | release w s x =>
    by_cases hx : x = id
    · subst hx
      obtain ⟨redis', status, hrel, hheld, -⟩ := release_spec redis w s x
      have hnone : held redis' x = none := (hheld x).trans (if_pos rfl)
      refine tracked_resolved rfl (by simp [Happening.resolves]) ?_
      simpa [Op.run, hrel] using hnone
    · exact ht.keeps rfl (by simp [Happening.resolves, hx]) rfl
        (resolve_keeps redis "RELEASE" (hstock w s) (hkey hx))
  | commit w s x =>
    by_cases hx : x = id
    · subst hx
      obtain ⟨redis', status, hcom, hheld, -⟩ := commit_spec redis w s x
      have hnone : held redis' x = none := (hheld x).trans (if_pos rfl)
      refine tracked_resolved rfl (by simp [Happening.resolves]) ?_
      simpa [Op.run, hcom] using hnone
    · exact ht.keeps rfl (by simp [Happening.resolves, hx]) rfl
        (resolve_keeps redis "COMMIT" (hstock w s) (hkey hx))

end Record

/-! ## What the calls of a run do -/

section Calls

variable {o : Order} {w w' : World} {g : Progress} {id : OrderId}

theorem participate_inventory {c : Call} (hc : c.touchesInventory = false) :
    (participate c w).1.redis = w.redis := by
  cases c with
  | reserve _ _ _ => cases hc
  | release _ _ _ => cases hc
  | commit _ _ _ => cases hc
  | updateStatus id status type detail =>
    simp only [participate]
    split <;> rfl
  | _ => rfl

theorem participate_draws (c : Call) :
    (participate c w).1.uuids = w.uuids ∧ w.drawn ≤ (participate c w).1.drawn := by
  cases c with
  | create _ _ _ _ => exact ⟨rfl, Nat.le_succ _⟩
  | reserve _ _ _ =>
    simp only [participate]
    split <;> exact ⟨rfl, Nat.le_succ _⟩
  | updateStatus _ _ _ _ | release _ _ _ | commit _ _ _ =>
    simp only [participate]
    split <;> exact ⟨rfl, Nat.le_refl _⟩
  | _ => exact ⟨rfl, Nat.le_refl _⟩

theorem participate_keepsLines (id : OrderId) {c : Call} (hc : ∀ a b x y, c ≠ .create a b x y) :
    KeepsLines id w (participate c w).1 := by
  intro o hget
  cases c with
  | create a b x y => exact absurd rfl (hc a b x y)
  | updateStatus x status type detail =>
    cases hx : w.store.get x with
    | none =>
      have hst : w.store.updateStatus x status ⟨type, w.clock, detail⟩ = none := by
        rw [OrderStore.updateStatus, hx, Option.map_none]
      simp only [participate, hst]
      exact ⟨o, hget, rfl⟩
    | some cur =>
      obtain ⟨store', hst, -, hget'⟩ :=
        OrderStore.updateStatus_of_get hx status ⟨type, w.clock, detail⟩
      simp only [participate, hst]
      rw [hget']
      split_ifs with heq
      · subst heq
        obtain rfl := Option.some.inj (hget.symm.trans hx)
        exact ⟨_, rfl, rfl⟩
      · exact ⟨o, hget, rfl⟩
  | reserve _ _ _ | release _ _ _ | commit _ _ _ =>
    simp only [participate]
    split <;> exact ⟨o, hget, rfl⟩
  | _ => exact ⟨o, hget, rfl⟩

/-- The replies of a run that nothing is assumed of, but that its order is there. -/
theorem replies_of_stored {c : Call} (hstored : ∃ o', w.store.get o.id = some o' ∧ o'.lines = o.lines)
    (hp : Allowed ⟨True, True, True⟩ o g c) {r : c.Reply} (hcall : participate c w = (w', .ok r)) :
    Replies ⟨True, True, True⟩ o c r := by
  cases c with
  | get x =>
    obtain ⟨rfl, -⟩ := hp
    obtain ⟨o', hget, hlines⟩ := hstored
    obtain ⟨-, hr⟩ := Prod.mk.inj hcall
    obtain rfl := Except.ok.inj hr
    exact ⟨o', hget, OrderStore.id_of_get hget, hlines⟩
  | reserve _ _ _ => cases r <;> trivial
  | charge _ _ => cases r <;> trivial
  | schedule _ _ => cases r <;> trivial
  | _ => trivial

/-- No call of such a run is rejected. -/
theorem participate_ok {c : Call} (hstored : ∃ o', w.store.get o.id = some o' ∧ o'.lines = o.lines)
    (hp : Allowed ⟨True, True, True⟩ o g c) : ∃ w' r, participate c w = (w', .ok r) := by
  cases c with
  | create _ _ _ _ => exact hp.elim
  | updateStatus id status type detail =>
    obtain ⟨rfl, -⟩ := hp
    obtain ⟨o', hget, -⟩ := hstored
    obtain ⟨store', hst, -⟩ := OrderStore.updateStatus_of_get hget status ⟨type, w.clock, detail⟩
    refine ⟨{ w with store := store' }, (), ?_⟩
    simp only [participate, hst]
  | reserve warehouseId sku qty =>
    have httl : (0 : Int) < DEFAULT_RESERVATION_TTL_SECONDS := by decide
    rcases reserve_cases w.redis warehouseId sku qty httl (w.uuids.draw w.drawn) with
      ⟨_, _, hrun, -⟩ | ⟨-, -, hrun⟩
    · exact ⟨_, _, by simp only [participate, hrun]; rfl⟩
    · exact ⟨_, _, by simp only [participate, hrun]; rfl⟩
  | release warehouseId sku id =>
    obtain ⟨_, _, hrel, -⟩ := release_spec w.redis warehouseId sku id
    exact ⟨_, _, by simp only [participate, hrel]; rfl⟩
  | commit warehouseId sku id =>
    obtain ⟨_, _, hcom, -⟩ := commit_spec w.redis warehouseId sku id
    exact ⟨_, _, by simp only [participate, hcom]; rfl⟩
  | _ => exact ⟨_, _, rfl⟩

/-- A commit is answered `COMMITTED` exactly if the reservation is live. -/
theorem commit_reply {warehouseId : WarehouseId} {sku : Sku} {resv : ReservationId} {r : ReleaseStatus}
    (hcall : participate (.commit warehouseId sku resv) w = (w', .ok r)) :
    r = .COMMITTED ↔ (held w.redis resv).isSome = true := by
  simp only [participate] at hcall
  cases hh : held w.redis resv with
  | none =>
    rw [commit_of_none hh] at hcall
    obtain ⟨-, hr⟩ := Prod.mk.inj hcall
    obtain rfl := Except.ok.inj hr
    simp
  | some q =>
    rw [commit_of_some hh] at hcall
    obtain ⟨-, hr⟩ := Prod.mk.inj hcall
    obtain rfl := Except.ok.inj hr
    simp

theorem redis_release (warehouseId : WarehouseId) (sku : Sku) (resv : ReservationId) :
    (participate (.release warehouseId sku resv) w).1.redis =
      (resolve w.redis warehouseId sku resv "RELEASE").1 := by
  simp only [participate]
  split <;> (rename_i heq; exact (congrArg Prod.fst heq).symm)

theorem redis_commit (warehouseId : WarehouseId) (sku : Sku) (resv : ReservationId) :
    (participate (.commit warehouseId sku resv) w).1.redis =
      (resolve w.redis warehouseId sku resv "COMMIT").1 := by
  simp only [participate]
  split <;> (rename_i heq; exact (congrArg Prod.fst heq).symm)

end Calls

/-! ## The invariant -/

section Invariant

variable {o : Order} {w w' : World} {tl : Timeline} {g g' : Progress} {e : Happening}

/-- The run is granted nothing. -/
theorem HoldsInv.step (h : HoldsInv o w tl g) (hlines : KeepsLines o.id w w')
    (huuids : w'.uuids = w.uuids) (hdrawn : w.drawn ≤ w'.drawn) (htaken : g'.taken = g.taken)
    (htracked : ∀ b ∈ g.taken, b.id ∉ g'.released → b.id ∉ g'.committed →
      Tracked b.id (e :: tl) w'.redis)
    (hanswer : ∀ x ∈ e.commit?, (x.2 = .COMMITTED ↔ tl.Kept x.1)) :
    HoldsInv o w' (e :: tl) g' where
  stored := by
    obtain ⟨o', hget, hl⟩ := h.stored
    obtain ⟨o'', hget', hl'⟩ := hlines o' hget
    exact ⟨o'', hget', hl'.trans hl⟩
  drawn := by
    intro b hb
    obtain ⟨n, hn, hid⟩ := h.drawn b (htaken ▸ hb)
    exact ⟨n, by omega, by rw [huuids, hid]⟩
  own := by
    rw [htaken]
    exact h.own
  tracked := by
    intro b hb hr hc
    exact htracked b (htaken ▸ hb) hr hc
  answered := ⟨hanswer, h.answered⟩

/-- The run is granted a reservation under a new id. -/
theorem HoldsInv.reserve (h : HoldsInv o w tl g) {warehouseId : WarehouseId} {sku : Sku} {qty : Int}
    {r : ReservationResult} (hcall : participate (.reserve warehouseId sku qty) w = (w', .ok r)) :
    HoldsInv o w' (.call (.reserve warehouseId sku qty) r :: tl)
      (g.note (.reserve warehouseId sku qty) r) := by
  have httl : (0 : Int) < DEFAULT_RESERVATION_TTL_SECONDS := by decide
  have hnew : ∀ b ∈ g.taken, b.id ≠ w.uuids.draw w.drawn := by
    intro b hb heq
    obtain ⟨n, hn, hid⟩ := h.drawn b hb
    have hsame : n = w.drawn := w.uuids.injective (hid.symm.trans heq)
    omega
  simp only [participate] at hcall
  rcases reserve_cases w.redis warehouseId sku qty httl (w.uuids.draw w.drawn) with
    ⟨reason, remaining, hrun, -⟩ | ⟨-, -, hrun⟩
  · rw [hrun] at hcall
    obtain ⟨rfl, hr⟩ := Prod.mk.inj hcall
    obtain rfl := Except.ok.inj hr
    show HoldsInv o _ _ g
    refine h.step (fun o hget => ⟨o, hget, rfl⟩) rfl (Nat.le_succ _) rfl ?_ (by rintro _ ⟨⟩)
    intro b hb hrel hcom
    exact (h.tracked b hb hrel hcom).keeps rfl rfl rfl ⟨rfl, rfl⟩
  · rw [hrun] at hcall
    obtain ⟨rfl, hr⟩ := Prod.mk.inj hcall
    obtain rfl := Except.ok.inj hr
    refine
      { stored := h.stored
        drawn := ?drawn
        own := ?own
        tracked := ?tracked
        answered := ⟨by rintro _ ⟨⟩, h.answered⟩ }
    case drawn =>
      intro b hb
      rcases List.mem_append.mp hb with hb | hb
      · obtain ⟨n, hn, hid⟩ := h.drawn b hb
        exact ⟨n, Nat.lt_succ_of_lt hn, hid⟩
      · obtain rfl := List.mem_singleton.mp hb
        exact ⟨w.drawn, Nat.lt_succ_self _, rfl⟩
    case own =>
      simp only [Progress.note, List.map_append, List.map_cons, List.map_nil]
      rw [List.nodup_append]
      refine ⟨h.own, List.nodup_singleton _, ?_⟩
      intro x hx y hy
      obtain ⟨b, hb, rfl⟩ := List.mem_map.mp hx
      rw [List.mem_singleton.mp hy]
      exact hnew b hb
    case tracked =>
      intro b hb hrel hcom
      rcases List.mem_append.mp hb with hb | hb
      · have hne := hnew b hb
        have hkeeps : w.redis.Keeps (reservationKey b.id)
            ((w.redis.incrBy (stockKey warehouseId sku) (-qty)).setEx
              (reservationKey (w.uuids.draw w.drawn)) qty DEFAULT_RESERVATION_TTL_SECONDS.toNat) := by
          refine ⟨?_, Redis.now_incrBy _⟩
          rw [Redis.setEx, Redis.entries_put, if_neg (reservationKey_inj.not.mpr hne),
            Redis.entries_incrBy_of_ne (stockKey_ne_reservationKey _ _ _).symm]
        exact (h.tracked b hb hrel hcom).keeps (by simp [Happening.grants, hne.symm]) rfl rfl hkeeps
      · obtain rfl := List.mem_singleton.mp hb
        refine tracked_grant (by simp [Happening.grants]) qty ?_
        show ((w.redis.incrBy _ _).setEx _ qty _).entries _ = some ⟨qty, some (_ + Timeline.ttl)⟩
        rw [Redis.setEx, Redis.entries_put, if_pos rfl]
        rfl

/-- A call that the run may make is answered as it assumes and keeps the account. -/
theorem HoldsInv.ok (h : HoldsInv o w tl g) {c : Call} (hp : Allowed ⟨True, True, True⟩ o g c)
    {r : c.Reply} (hcall : participate c w = (w', .ok r)) :
    HoldsInv o w' (.call c r :: tl) (g.note c r) := by
  have hcreate : ∀ a b x y, c ≠ .create a b x y := by
    rintro a b x y rfl
    exact hp
  have hlines : KeepsLines o.id w w' := by
    have := participate_keepsLines o.id (w := w) hcreate
    rwa [hcall] at this
  obtain ⟨huuids, hdrawn⟩ := participate_draws (w := w) c
  rw [hcall] at huuids hdrawn
  have hquiet : c.touchesInventory = false → (g.note c r).taken = g.taken →
      (∀ id ∈ g.released, id ∈ (g.note c r).released) →
      (∀ id ∈ g.committed, id ∈ (g.note c r).committed) →
      (∀ id, Happening.grants id (.call c r) = false) →
      (Happening.call c r).commit? = none →
      HoldsInv o w' (.call c r :: tl) (g.note c r) := by
    intro hinv htaken hreleased hcommitted hgrants hnot
    have hredis := participate_inventory (w := w) hinv
    rw [hcall] at hredis
    refine h.step hlines huuids hdrawn htaken ?_ (by rw [hnot]; rintro _ ⟨⟩)
    intro b hb hrel hcom
    have ht := h.tracked b hb (fun hmem => hrel (hreleased _ hmem)) fun hmem => hcom (hcommitted _ hmem)
    exact ht.keeps (hgrants _) rfl rfl ⟨by rw [hredis], by rw [hredis]⟩
  cases c with
  | reserve warehouseId sku qty => exact h.reserve hcall
  | release warehouseId sku id =>
    have hredis := redis_release (w := w) warehouseId sku id
    rw [hcall] at hredis
    refine h.step hlines huuids hdrawn rfl ?_ (by rintro _ ⟨⟩)
    intro b hb hrel hcom
    simp only [Progress.note, List.mem_append, List.mem_singleton, not_or] at hrel
    refine (h.tracked b hb hrel.1 hcom).keeps rfl rfl rfl ?_
    rw [hredis]
    exact resolve_keeps _ _ (stockKey_ne_reservationKey _ _ _).symm (reservationKey_inj.not.mpr hrel.2)
  | commit warehouseId sku id =>
    have hredis := redis_commit (w := w) warehouseId sku id
    rw [hcall] at hredis
    refine h.step hlines huuids hdrawn rfl ?_ ?_
    · intro b hb hrel hcom
      simp only [Progress.note, List.mem_append, List.mem_singleton, not_or] at hcom
      refine (h.tracked b hb hrel hcom.1).keeps rfl rfl rfl ?_
      rw [hredis]
      exact resolve_keeps _ _ (stockKey_ne_reservationKey _ _ _).symm (reservationKey_inj.not.mpr hcom.2)
    · rintro _ ⟨⟩
      obtain ⟨done, b, todo, htaken, hres, paymentId, shipmentId, hg⟩ := hp
      have hb : b ∈ g.taken := by
        rw [htaken]
        simp
      have hid : b.id = id := by rw [Booking.id, hres]
      have hown := h.own
      rw [htaken, List.map_append, List.map_cons, List.nodup_append] at hown
      have hnot : b.id ∉ g.committed := by
        rw [hg.committed]
        exact fun hmem => hown.2.2 _ hmem _ List.mem_cons_self rfl
      have hrel : b.id ∉ g.released := by
        rw [hg.released]
        exact List.not_mem_nil
      show r = .COMMITTED ↔ tl.Kept id
      rw [commit_reply hcall, ← hid]
      exact (h.tracked b hb hrel hnot).held_iff
  | charge _ _ =>
    cases r <;> exact hquiet rfl rfl (fun _ hm => hm) (fun _ hm => hm) (fun _ => rfl) rfl
  | schedule _ _ =>
    cases r <;> exact hquiet rfl rfl (fun _ hm => hm) (fun _ hm => hm) (fun _ => rfl) rfl
  | _ =>
    exact hquiet rfl rfl (fun _ hm => hm) (fun _ hm => hm) (fun _ => rfl) rfl

theorem holds_sound (o : Order) : Sound (timeline o.id) (fun _ => runContract ⟨True, True, True⟩ o)
    (fun s gs => HoldsInv o s.1 s.2 (gs ())) where
  ok {s gs i c s' r} h hp _ hc := by
    obtain ⟨w, tl⟩ := s
    rcases hcall : participate c w with ⟨w', e | r'⟩
    · simp only [timeline, hcall] at hc
      cases (Prod.mk.inj hc).2
    · simp only [timeline, hcall] at hc
      obtain ⟨rfl, hr⟩ := Prod.mk.inj hc
      obtain rfl := Except.ok.inj hr
      refine ⟨replies_of_stored h.stored hp.2 hcall, ?_⟩
      rw [Function.update_self]
      exact h.ok hp.2 hcall
  error {s gs i c s' e} h hp _ hc := by
    obtain ⟨w', r, hcall⟩ := participate_ok h.stored hp.2
    simp only [timeline, hcall] at hc
    cases (Prod.mk.inj hc).2
  env {s s' gs} h he := by
    obtain ⟨op, hforeign, hredis, htl, huuids, hdrawn, hlines⟩ := he
    rw [htl]
    refine h.step hlines huuids hdrawn rfl ?_ (by rintro _ ⟨⟩)
    intro b hb hrel hcom
    rw [hredis]
    refine (h.tracked b hb hrel hcom).other op ?_
    rintro w' s'' qty ttl rfl
    obtain ⟨n, -, hid⟩ := h.drawn b hb
    exact hforeign n hid.symm

theorem holdsInv_start {w : World} {o : Order} (hget : w.store.get o.id = some o) :
    HoldsInv o w [] {} where
  stored := ⟨o, hget, rfl⟩
  drawn _ hb := by cases hb
  own := List.nodup_nil
  tracked _ hb := by cases hb
  answered := trivial

/-- If every commit was answered by what became of its reservation, all were answered `COMMITTED` exactly
if all were kept. -/
theorem Timeline.Answered.committed_iff : ∀ {tl : Timeline}, tl.Answered → (tl.AllCommitted ↔ tl.AllKept)
  | [], _ => by simp [AllCommitted, AllKept]
  | e :: tl, h => by
    obtain ⟨hfirst, hrest⟩ := h
    have ih := hrest.committed_iff
    unfold AllCommitted at ih ⊢
    rw [AllKept, ← ih, List.filterMap_cons]
    cases he : e.commit? with
    | none => simp
    | some x =>
      have hx := hfirst x he
      simp [hx]

/-- A run that confirms its order has committed every reservation while it was live, exactly if each of
them was kept until then: less time than it has to live has passed since its grant, and nobody else has
released or committed it. A commit that comes too late is answered `ALREADY_RESOLVED`. -/
theorem confirmed_committed_iff {w : World} {o : Order} (hget : w.store.get o.id = some o)
    {P : Pool participants Unit SagaError (World × Timeline) Progress Order}
    (hr : (timeline o.id).Reaches ⟨(w, []), fun _ => {}, fun _ => run o.id⟩ P) :
    (P.state.2.Confirms o.id → P.state.2.AllCommitted) ↔ (P.state.2.Confirms o.id → P.state.2.AllKept) := by
  have hI := ((holds_sound o).reaches (Q := fun _ _ => Settled ⟨True, True, True⟩ o) hr
    (holdsInv_start hget) fun _ => run_outline _ o).1
  exact imp_congr_right fun _ => hI.answered.committed_iff

end Invariant

/-! ## A run that pauses before its commit -/

/-- An order of two of five units. -/
def pausingOrder : Order := freshOrder "order" [⟨"sku", 2, "warehouse"⟩]

/-- A world with five units in stock. -/
def pausingWorld : World := startWorld .inMemory [pausingOrder] 5 (fun _ => false) fun _ => false

/-- The run has scheduled the shipment and is about to commit. -/
def beforeCommit : Pool participants Unit SagaError (World × Timeline) Progress Order :=
  (timeline "order").schedule ⟨(pausingWorld, []), fun _ => {}, fun _ => run "order"⟩ (List.replicate 10 ())

/-- Time passes, and then the run goes on to its end. -/
def resumedAfter (ms : Nat) : Pool participants Unit SagaError (World × Timeline) Progress Order :=
  (timeline "order").schedule
    ⟨({ beforeCommit.state.1 with redis := beforeCommit.state.1.redis.elapse ms },
        .other (.elapse ms) :: beforeCommit.state.2),
      beforeCommit.aux, beforeCommit.prog⟩
    (List.replicate 4 ())

theorem reaches_resumedAfter (ms : Nat) : (timeline "order").Reaches
    ⟨(pausingWorld, []), fun _ => {}, fun _ => run "order"⟩ (resumedAfter ms) := by
  have hbefore := reaches_schedule (M := timeline "order") (fun _ _ _ _ => trivial) (List.replicate 10 ())
    ⟨(pausingWorld, []), fun _ => {}, fun _ => run "order"⟩
  refine (hbefore.tail (.env ?_)).trans (reaches_schedule (fun _ _ _ _ => trivial) _ _)
  exact ⟨.elapse ms, trivial, rfl, rfl, rfl, Nat.le_refl _, fun o hget => ⟨o, hget, rfl⟩⟩

theorem shortPause_committed : (resumedAfter 1000).state.2.Confirms "order" ∧
    (resumedAfter 1000).state.2.AllCommitted := by
  have hconfirms : (resumedAfter 1000).state.2.Confirms "order" := by
    unfold Timeline.Confirms
    decide +kernel
  have hkept : (resumedAfter 1000).state.2.AllKept := by
    decide +kernel
  have hget : pausingWorld.store.get pausingOrder.id = some pausingOrder := by
    decide +kernel
  exact ⟨hconfirms, (confirmed_committed_iff hget (reaches_resumedAfter 1000)).mpr (fun _ => hkept) hconfirms⟩

/-- The hold has lapsed, its commit is answered so, and the order is confirmed all the same. -/
theorem longPause_confirms : ¬ ∀ (w : World) (o : Order)
    (P : Pool participants Unit SagaError (World × Timeline) Progress Order),
    w.store.get o.id = some o →
    (timeline o.id).Reaches ⟨(w, []), fun _ => {}, fun _ => run o.id⟩ P →
    P.state.2.Confirms o.id → P.state.2.AllCommitted := by
  intro hall
  have hall := hall pausingWorld pausingOrder (resumedAfter 900000) (by decide +kernel)
    (reaches_resumedAfter 900000) (by unfold Timeline.Confirms; decide +kernel)
  revert hall
  unfold Timeline.AllCommitted
  decide +kernel

end SupplyChain
