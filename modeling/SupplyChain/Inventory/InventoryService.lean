import SupplyChain.Inventory.Redis
import SupplyChain.Types

/-!
# `InventoryService`

The operations of `inventoryService.ts` over the exact keyspace. Each is one round trip, so one atomic
step. What the service keeps for the dashboard (the registry of known items, the metrics) is left out. On a
server that runs the scripts on texts the operations are those of `RedisLike`, which agree with these as long as
the numbers are exact and Redis takes the deadlines.
-/

namespace SupplyChain

namespace InventoryService

/-- Fifteen minutes. -/
def DEFAULT_RESERVATION_TTL_SECONDS : Int := 60 * 15

/-- The key of an item's counter. -/
def stockKey (warehouseId : WarehouseId) (sku : Sku) : String :=
  "stock:" ++ warehouseId ++ ":" ++ sku

/-- The key of a reservation. -/
def reservationKey (reservationId : ReservationId) : String := "resv:" ++ reservationId

/-- Set the counter of an item. -/
def setStock (redis : Redis) (warehouseId : WarehouseId) (sku : Sku) (qty : Int) : Redis :=
  redis.set (stockKey warehouseId sku) qty

/-- What the counter of an item has, zero if it has none. -/
def getAvailable (redis : Redis) (warehouseId : WarehouseId) (sku : Sku) : Int :=
  (redis.lookup (stockKey warehouseId sku)).getD 0

/-- `reserve`, with the id that `randomUUID()` draws. -/
def reserve (redis : Redis) (warehouseId : WarehouseId) (sku : Sku) (qty : Int) (ttlSeconds : Int)
    (reservationId : ReservationId) : Redis × Except RedisError ReservationResult :=
  if qty ≤ 0 then (redis, .ok (.rejected .INVALID_QTY none))
  else
    match (exactReserve (stockKey warehouseId sku) (reservationKey reservationId) (some qty)
      reservationId (some ttlSeconds)).eval redis with
    | (redis', .ok (.INSUFFICIENT_STOCK, value)) =>
      (redis', .ok (.rejected .INSUFFICIENT_STOCK (some value)))
    | (redis', .ok (.UNKNOWN_SKU, value)) => (redis', .ok (.rejected .UNKNOWN_SKU (some value)))
    | (redis', .ok (.OK, value)) => (redis', .ok (.accepted reservationId value))
    | (redis', .error e) => (redis', .error e)

/-- What `release` and `commit` have in common: one evaluation of the release script. -/
def resolve (redis : Redis) (warehouseId : WarehouseId) (sku : Sku) (reservationId : ReservationId)
    (mode : String) : Redis × Except RedisError ReleaseStatus :=
  match (exactRelease (stockKey warehouseId sku) (reservationKey reservationId) mode).eval redis with
  | (redis', .ok (status, _)) => (redis', .ok status)
  | (redis', .error e) => (redis', .error e)

/-- `release`: return a reservation to the available pool. -/
def release (redis : Redis) (warehouseId : WarehouseId) (sku : Sku)
    (reservationId : ReservationId) : Redis × Except RedisError ReleaseStatus :=
  resolve redis warehouseId sku reservationId "RELEASE"

/-- `commit`: consume a reservation once the order is confirmed. -/
def commit (redis : Redis) (warehouseId : WarehouseId) (sku : Sku)
    (reservationId : ReservationId) : Redis × Except RedisError ReleaseStatus :=
  resolve redis warehouseId sku reservationId "COMMIT"

/-! ## The two kinds of keys

A stock key is `stock:` and the name of an item, a reservation key is `resv:` and an id. Two pairs with
the same item name share one counter. -/

/-- The name of the item that a pair addresses. -/
def itemName (warehouseId : WarehouseId) (sku : Sku) : String := warehouseId ++ ":" ++ sku

/-- The counter of an item; a missing one counts as zero. -/
def units (redis : Redis) (item : String) : Int := (redis.lookup ("stock:" ++ item)).getD 0

/-- The quantity of a live reservation. -/
def held (redis : Redis) (reservationId : ReservationId) : Option Int :=
  redis.lookup (reservationKey reservationId)

end InventoryService

end SupplyChain
