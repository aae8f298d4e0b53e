import SupplyChain.Inventory.ScriptServer
import SupplyChain.Orders.Accounts

/-!
# The saga over any server

The participants of the saga with `InventoryService` over a client of its own, so that its scripts can be run on
texts. Everything else is shared with `participate`.
-/

namespace SupplyChain

open Async InventoryService

/-- The participants of the saga with a server for the inventory; the Redis of `world` is not used. -/
structure ServedWorld (σ : Type) where
  /-- Everything but the inventory. -/
  world : World
  /-- The server of the inventory. -/
  server : σ

/-- What a call comes to when the inventory is on a server. -/
def participateOn {σ : Type} (redis : RedisLike σ) : Handler participants SagaError (ServedWorld σ)
  | .reserve warehouseId sku qty, w =>
    let (server, result) := redis.reserve w.server warehouseId sku qty DEFAULT_RESERVATION_TTL_SECONDS
      (w.world.uuids.draw w.world.drawn)
    (⟨{ w.world with drawn := w.world.drawn + 1 }, server⟩, result.mapError .redis)
  | .release warehouseId sku reservationId, w =>
    let (server, result) := redis.release w.server warehouseId sku reservationId
    ({ w with server }, result.mapError .redis)
  | .commit warehouseId sku reservationId, w =>
    let (server, result) := redis.commit w.server warehouseId sku reservationId
    ({ w with server }, result.mapError .redis)
  | c, w =>
    let (world, reply) := participate c w.world
    ({ w with world }, reply)

/-- Time passes, and no key of the server reaches its deadline. -/
def IdleOn {σ : Type} (d : Deployment σ) (w w' : ServedWorld σ) : Prop :=
  ∃ seconds ms,
    w' = ⟨{ w.world with clock := w.world.clock + seconds }, d.elapse w.server ms⟩ ∧
    ∀ key, d.value w'.server key = d.value w.server key

/-- Executions of the saga in any order, in which no call throws, with time passing in between, but not so
much that a reservation lapses. -/
def sagasOn {σ : Type} (d : Deployment σ) (ι : Type) :
    System participants ι SagaError (ServedWorld σ) Progress where
  handle := participateOn d.redis
  note := Progress.note
  guard _ _ c w := (participateOn d.redis c w).2.isOk
  env := IdleOn d

instance {σ ι : Type} (d : Deployment σ) (i : ι) (g : Progress) (c : Call) (w : ServedWorld σ) :
    Decidable ((sagasOn d ι).guard i g c w) :=
  inferInstanceAs (Decidable (_ = true))

end SupplyChain
