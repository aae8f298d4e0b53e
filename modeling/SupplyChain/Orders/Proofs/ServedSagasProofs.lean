import SupplyChain.Inventory.Proofs.ScriptServerProofs
import SupplyChain.Orders.Outcomes
import SupplyChain.Orders.Proofs.RunsProofs
import SupplyChain.Orders.ServedSagas

/-!
# Proofs: in range, runs over the scripts are runs over the exact model

A call that does not throw does to the texts what it does to the numbers, provided that the counters and the
reservations have at most 53 bits. Runs keep them so, when every counter starts below 2^53.
-/

namespace SupplyChain

open Async InventoryService SagaOrchestrator

variable {lua : LuaNumbers} {ofInt : Int → lua.Num}

/-- The same with another Redis. -/
def World.over (w : World) (redis : Redis) : World := { w with redis }

/-- The state of the saga over the scripts that has the texts of an exact one. -/
def World.served (w : World) (unused : Redis) : ServedWorld Keyspace := ⟨w.over unused, .ofRedis w.redis⟩

/-! ## One call -/

section Call

variable {w : World} {unused : Redis}

theorem scripts_participate_reserve (hexact : lua.Exact ofInt) {warehouseId : WarehouseId} {sku : Sku} {qty : Int}
    (hvalue : w.redis.RangedAt (stockKey warehouseId sku))
    (hok : (participateOn (.scripts lua) (.reserve warehouseId sku qty) (w.served unused)).2.isOk) :
    participateOn (.scripts lua) (.reserve warehouseId sku qty) (w.served unused) =
      (participate (.reserve warehouseId sku qty) w).map (World.served · unused) id := by
  have hpos : 0 < DEFAULT_RESERVATION_TTL_SECONDS := by decide
  have hdouble : Decimal.IsDouble DEFAULT_RESERVATION_TTL_SECONDS := by decide +kernel
  have hfits : 0 < qty → ∀ v, w.redis.lookup (stockKey warehouseId sku) = some v → qty ≤ v →
      w.redis.now + 1000 * DEFAULT_RESERVATION_TTL_SECONDS < 2 ^ 63 := by
    intro hqty v hlookup hle
    by_contra hlate
    obtain ⟨e, hfail⟩ : ∃ e, (RedisLike.scripts lua).reserve (.ofRedis w.redis) warehouseId sku qty
        DEFAULT_RESERVATION_TTL_SECONDS (w.uuids.draw w.drawn) = (_, .error e) :=
      scripts_reserve_late hexact hvalue hqty hdouble hpos hlookup hle (Int.not_lt.mp hlate)
    have hthrows : (participateOn (.scripts lua) (.reserve warehouseId sku qty) (w.served unused)).2 =
        .error (.redis e) := congrArg (fun x : Keyspace × _ => x.2.mapError SagaError.redis) hfail
    rw [hthrows] at hok
    cases hok
  have hreserve : (RedisLike.scripts lua).reserve (.ofRedis w.redis) warehouseId sku qty
      DEFAULT_RESERVATION_TTL_SECONDS (w.uuids.draw w.drawn) = _ :=
    scripts_reserve hexact hvalue hdouble hpos hfits
  unfold participateOn participate World.served World.over
  dsimp only
  rw [hreserve]
  rcases reserve w.redis warehouseId sku qty DEFAULT_RESERVATION_TTL_SECONDS (w.uuids.draw w.drawn) with
    ⟨redis, e | result⟩ <;> rfl

theorem scripts_participate_resolve (hexact : lua.Exact ofInt) {warehouseId : WarehouseId} {sku : Sku}
    {reservationId : ReservationId} (hstock : w.redis.RangedAt (stockKey warehouseId sku))
    (hresv : w.redis.RangedAt (reservationKey reservationId)) {c : Call}
    (hc : c = .release warehouseId sku reservationId ∨ c = .commit warehouseId sku reservationId) :
    participateOn (.scripts lua) c (w.served unused) = (participate c w).map (World.served · unused) id := by
  rcases hc with rfl | rfl
  · have hrelease : (RedisLike.scripts lua).release (.ofRedis w.redis) warehouseId sku reservationId = _ :=
      scripts_resolve hexact hstock hresv "RELEASE"
    unfold participateOn participate World.served World.over
    dsimp only
    rw [hrelease, release]
    rcases resolve w.redis warehouseId sku reservationId "RELEASE" with ⟨redis, e | status⟩ <;> rfl
  · have hcommit : (RedisLike.scripts lua).commit (.ofRedis w.redis) warehouseId sku reservationId = _ :=
      scripts_resolve hexact hstock hresv "COMMIT"
    unfold participateOn participate World.served World.over
    dsimp only
    rw [hcommit, commit]
    rcases resolve w.redis warehouseId sku reservationId "COMMIT" with ⟨redis, e | status⟩ <;> rfl

/-- In range, a call that does not throw does to the texts what it does to the numbers. -/
theorem scripts_participate (hexact : lua.Exact ofInt)
    (hstock : ∀ warehouseId sku, w.redis.RangedAt (stockKey warehouseId sku))
    (hresv : ∀ id, w.redis.RangedAt (reservationKey id)) {c : Call}
    (hok : (participateOn (.scripts lua) c (w.served unused)).2.isOk) :
    participateOn (.scripts lua) c (w.served unused) = (participate c w).map (World.served · unused) id := by
  cases c with
  | reserve warehouseId sku qty => exact scripts_participate_reserve hexact (hstock _ _) hok
  | release warehouseId sku id => exact scripts_participate_resolve hexact (hstock _ _) (hresv _) (.inl rfl)
  | commit warehouseId sku id => exact scripts_participate_resolve hexact (hstock _ _) (hresv _) (.inr rfl)
  | updateStatus id status type detail =>
    unfold participateOn participate World.served World.over
    dsimp only
    cases w.store.updateStatus id status ⟨type, w.clock, detail⟩ <;> rfl
  | create _ _ _ _ | get _ | nonTerminal | fields _ | publish _ _ _ | charge _ _ | refund _ | schedule _ _
  | cancel _ => rfl

end Call

/-! ## The numbers of runs -/

section Numbers

variable {ι : Type} [Fintype ι] {orders : ι → Order} {base w : World} {gs : ι → Progress}

theorem le_tied {g : Progress} {redis : Redis} (hpos : ∀ b ∈ g.taken, 0 < b.qty) {b : Booking}
    (hb : b ∈ g.taken) (hlive : (held redis b.id).isSome) : b.qty ≤ g.tied redis b.item := by
  have hone : b.tied redis g.committed b.item = b.qty := by
    rw [Booking.tied, if_pos ⟨rfl, Or.inl hlive⟩]
  have hnonneg : ∀ x ∈ g.taken.map fun c => c.tied redis g.committed b.item, 0 ≤ x := by
    intro x hx
    obtain ⟨c, hc, rfl⟩ := List.mem_map.mp hx
    have := hpos c hc
    unfold Booking.tied
    split <;> omega
  rw [← hone]
  exact List.single_le_sum hnonneg _ (List.mem_map_of_mem hb)

theorem RunsInv.tied_nonneg (h : RunsInv orders base w gs) (item : String) (i : ι) :
    0 ≤ (gs i).tied w.redis item :=
  (tied_bounds w.redis item fun _ hb => h.unshared.pos hb).1

variable (hlevel : ∀ warehouseId sku, getAvailable base.redis warehouseId sku < 2 ^ 53)

include hlevel

/-- A counter has no more than it had. -/
theorem RunsInv.counter_ranged (h : RunsInv orders base w gs) (warehouseId : WarehouseId) (sku : Sku) :
    w.redis.RangedAt (stockKey warehouseId sku) := by
  intro v hv
  have hv' : units w.redis (itemName warehouseId sku) = v := by
    rw [units, ← stockKey_eq, hv]
    rfl
  have hlow := h.unshared.nonneg warehouseId sku
  have hhigh := hlevel warehouseId sku
  rw [getAvailable_eq] at hhigh
  have hsum := Finset.sum_nonneg fun i (_ : i ∈ Finset.univ) => h.tied_nonneg (itemName warehouseId sku) i
  have hall := h.stock.conserved (itemName warehouseId sku)
  omega

/-- A reservation holds a part of what a counter had. -/
theorem RunsInv.reservation_ranged (hbefore : ∀ id, held base.redis id = none)
    (h : RunsInv orders base w gs) (id : ReservationId) : w.redis.RangedAt (reservationKey id) := by
  intro q hq
  by_cases hex : ∃ i, ∃ b ∈ (gs i).taken, b.id = id
  · obtain ⟨i, b, hb, rfl⟩ := hex
    obtain rfl := h.stock.qty hb hq
    have hpos := h.unshared.pos hb
    have hpart := le_tied (fun c hc => h.unshared.pos hc) hb (Option.isSome_of_eq_some hq)
    have htied := Finset.single_le_sum (fun j _ => h.tied_nonneg b.item j) (Finset.mem_univ i)
    have hlow := h.unshared.nonneg b.reservation.warehouseId b.reservation.sku
    have hhigh := hlevel b.reservation.warehouseId b.reservation.sku
    rw [getAvailable_eq] at hhigh
    have hall := h.stock.conserved b.item
    rw [Booking.item] at hpart htied hall
    omega
  · have hnone : held w.redis id = none := by
      rw [h.stock.others fun i b hb heq => hex ⟨i, b, hb, heq⟩, hbefore]
    rw [held, hq] at hnone
    cases hnone

end Numbers

/-! ## Runs -/

section Runs

variable {ι : Type} [Fintype ι] [DecidableEq ι] {orders : ι → Order} {w : World}

/-- The account of runs over the scripts is that of the numbers that the texts are of. -/
def ServedInv (orders : ι → Order) (base : World) (s : ServedWorld Keyspace) (gs : ι → Progress) : Prop :=
  ∃ w unused, s = w.served unused ∧ RunsInv orders base w gs

theorem idle_of_idleOn {unused : Redis} {s' : ServedWorld Keyspace}
    (hidle : IdleOn (.scripts lua) (w.served unused) s') : ∃ w', s' = w'.served unused ∧ Idle w w' := by
  obtain ⟨seconds, ms, rfl, hvalue⟩ := hidle
  refine ⟨{ w with clock := w.clock + seconds, redis := w.redis.elapse ms }, ?_, seconds, ms, rfl, fun key => ?_⟩
  · exact congrArg (ServedWorld.mk _) (Keyspace.elapse_ofRedis ms)
  · have hkey : ((Keyspace.ofRedis w.redis).elapse ms |>.get key).toOption.join =
        ((Keyspace.ofRedis w.redis).get key).toOption.join := hvalue key
    rw [Keyspace.elapse_ofRedis, scripts_get, scripts_get] at hkey
    exact Option.map_injective (fun _ _ => toString_injective) hkey

/-- Runs over the scripts keep the account, when every counter starts below 2^53. -/
theorem served_sound (hexact : lua.Exact ofInt) (h : Fresh orders w)
    (hlevel : ∀ warehouseId sku, getAvailable w.redis warehouseId sku < 2 ^ 53) :
    Sound (sagasOn (.scripts lua) ι) (fun i => runContract (faults orders w i) (orders i))
      (ServedInv orders w) := by
  refine Sound.of_resolves ?_ ?_
  · rintro s gs i c ⟨v, unused, rfl, hI⟩ ⟨-, hallowed⟩ hok
    obtain ⟨v', r, hcall, hreplies, hI'⟩ := hI.resolves h.ids h.qty hallowed
    refine ⟨v'.served unused, r, ?_, hreplies, v', unused, rfl, hI'⟩
    have hscripts := scripts_participate hexact (hI.counter_ranged hlevel)
      (hI.reservation_ranged hlevel h.noReservation) hok
    rw [hcall] at hscripts
    exact hscripts
  · rintro s s' gs ⟨v, unused, rfl, hI⟩ hidle
    obtain ⟨v', rfl, hidle'⟩ := idle_of_idleOn hidle
    exact ⟨v', unused, rfl, hI.idle hidle'⟩

/-- In every interleaving of runs over the scripts the account holds, and each run keeps to its outline. -/
theorem Fresh.reaches_served (hexact : lua.Exact ofInt) (h : Fresh orders w)
    (hlevel : ∀ warehouseId sku, getAvailable w.redis warehouseId sku < 2 ^ 53)
    {P : Pool participants ι SagaError (ServedWorld Keyspace) Progress Order}
    (hr : (sagasOn (.scripts lua) ι).Reaches ⟨w.served w.redis, fun _ => {}, fun i => run (orders i).id⟩ P) :
    ServedInv orders w P.state P.aux ∧ ∀ i, RunOutline (faults orders w i) (orders i)
      (fun _ => Settled (faults orders w i) (orders i)) (P.prog i) (P.aux i) :=
  (served_sound hexact h hlevel).reaches hr ⟨w, w.redis, rfl, h.toReady.runsInv⟩ fun _ => run_outline _ _

end Runs

end SupplyChain
