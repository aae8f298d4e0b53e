import SupplyChain.Inventory.InventoryService
import SupplyChain.Text.Decimal

/-!
# The in-process stand-in for Redis

`InMemoryRedisClient` of `inMemoryRedis.ts`: a map of texts and a map of deadlines, swept when a key is
read. `RedisLike` is what `InventoryService` calls, with the two scripts it sends as operations of
their own, since `eval` recognises exactly these by their text. Numbers are integers without limits, which the
doubles of the client are as long as levels and quantities have at most 53 bits; a deadline of more bits is one
that `Date.now()` never reaches, rounded or not.
-/

namespace SupplyChain

open Decimal (number)

/-- `RedisLike` over a state of type `σ`. The reserve operation takes the stock key, the reservation
key, the quantity, the reservation id and the time to live; the release operation takes the two keys
and the mode. -/
structure RedisLike (σ : Type) where
  /-- `GET` -/
  get : σ → String → σ × Option String
  /-- `SET`, without a deadline. -/
  set : σ → String → String → σ
  /-- `EVAL` of `reserve.lua` -/
  evalReserve : σ → String → String → Int → String → Int →
    σ × Except RedisError (ReserveStatus × Int)
  /-- `EVAL` of `release.lua` -/
  evalRelease : σ → String → String → String → σ × Except RedisError (ReleaseStatus × Int)

/-- The server. A value is kept as the number its text denotes. -/
def RedisLike.server : RedisLike Redis where
  get r key := (r, (r.lookup key).map toString)
  set r key value := r.set key (number value)
  evalReserve r stockKey resvKey qty reservationId ttlSeconds :=
    (exactReserve stockKey resvKey (some qty) reservationId (some ttlSeconds)).eval r
  evalRelease r stockKey resvKey mode := (exactRelease stockKey resvKey mode).eval r

/-- `store` and `expiresAt`, and what `Date.now()` reads. -/
structure InMemoryRedisClient where
  /-- The texts under the keys. -/
  store : String → Option String
  /-- The deadlines of keys that have one. -/
  expiresAt : String → Option Int
  /-- `Date.now()` -/
  now : Nat

namespace InMemoryRedisClient

/-- A client that has just been created. -/
def empty (now : Nat) : InMemoryRedisClient := ⟨fun _ => none, fun _ => none, now⟩

/-- `this.store.set(key, value)` -/
def storeSet (c : InMemoryRedisClient) (key value : String) : InMemoryRedisClient :=
  { c with store := fun k => if k = key then some value else c.store k }

/-- `this.store.delete(key)` -/
def storeDelete (c : InMemoryRedisClient) (key : String) : InMemoryRedisClient :=
  { c with store := fun k => if k = key then none else c.store k }

/-- `this.expiresAt.set(key, exp)` -/
def expiresAtSet (c : InMemoryRedisClient) (key : String) (exp : Int) : InMemoryRedisClient :=
  { c with expiresAt := fun k => if k = key then some exp else c.expiresAt k }

/-- `this.expiresAt.delete(key)` -/
def expiresAtDelete (c : InMemoryRedisClient) (key : String) : InMemoryRedisClient :=
  { c with expiresAt := fun k => if k = key then none else c.expiresAt k }

/-- `isLive`: a key whose deadline is reached is deleted from both maps. -/
def isLive (c : InMemoryRedisClient) (key : String) : InMemoryRedisClient × Bool :=
  match c.expiresAt key with
  | some exp =>
    if exp ≤ c.now then ((c.storeDelete key).expiresAtDelete key, false)
    else (c, (c.store key).isSome)
  | none => (c, (c.store key).isSome)

/-- The text of a key that is live. -/
def get (c : InMemoryRedisClient) (key : String) : InMemoryRedisClient × Option String :=
  let (c, live) := c.isLive key
  (c, if live then c.store key else none)

/-- A plain set clears the deadline. -/
def set (c : InMemoryRedisClient) (key value : String) : InMemoryRedisClient :=
  (c.storeSet key value).expiresAtDelete key

/-- `Number(this.store.get(key))` where the key is present. -/
def storedNumber (c : InMemoryRedisClient) (key : String) : Int :=
  number ((c.store key).getD "")

/-- `evalReserve`: what `reserve.lua` does, on the two maps. -/
def evalReserve (c : InMemoryRedisClient) (stockKey resvKey : String) (qty : Int)
    (_reservationId : String) (ttlSeconds : Int) :
    InMemoryRedisClient × Except RedisError (ReserveStatus × Int) :=
  if qty ≤ 0 then (c, .error .INVALID_QTY)
  else
    let (c, live) := c.isLive stockKey
    if !live then (c, .ok (.UNKNOWN_SKU, 0))
    else
      let available := c.storedNumber stockKey
      if available < qty then (c, .ok (.INSUFFICIENT_STOCK, available))
      else
        let remaining := available - qty
        let c := c.storeSet stockKey (toString remaining)
        let c := c.storeSet resvKey (toString qty)
        let c := c.expiresAtSet resvKey (c.now + ttlSeconds * 1000)
        (c, .ok (.OK, remaining))

/-- `evalRelease`: what `release.lua` does, on the two maps. -/
def evalRelease (c : InMemoryRedisClient) (stockKey resvKey mode : String) :
    InMemoryRedisClient × Except RedisError (ReleaseStatus × Int) :=
  let (c, live) := c.isLive resvKey
  if !live then (c, .ok (.ALREADY_RESOLVED, 0))
  else
    let qty := c.storedNumber resvKey
    let c := (c.storeDelete resvKey).expiresAtDelete resvKey
    if mode = "RELEASE" then
      let (c, stockLive) := c.isLive stockKey
      let current := if stockLive then c.storedNumber stockKey else 0
      (c.storeSet stockKey (toString (current + qty)), .ok (.RELEASED, qty))
    else if mode = "COMMIT" then (c, .ok (.COMMITTED, qty))
    else (c, .error .INVALID_MODE)

/-- Some time passes. -/
def elapse (c : InMemoryRedisClient) (ms : Nat) : InMemoryRedisClient := { c with now := c.now + ms }

/-- What a key holds, as a reader of the client sees it. -/
def value (c : InMemoryRedisClient) (key : String) : Option String := (c.get key).2

end InMemoryRedisClient

/-- The stand-in, as a client of the service. -/
def RedisLike.inMemory : RedisLike InMemoryRedisClient where
  get := InMemoryRedisClient.get
  set := InMemoryRedisClient.set
  evalReserve := InMemoryRedisClient.evalReserve
  evalRelease := InMemoryRedisClient.evalRelease

/-! ## `InventoryService` over a client -/

namespace RedisLike

open InventoryService (stockKey reservationKey)

variable {σ : Type} (redis : RedisLike σ)

/-- Set the counter of an item. -/
def setStock (s : σ) (warehouseId : WarehouseId) (sku : Sku) (qty : Int) : σ :=
  redis.set s (stockKey warehouseId sku) (toString qty)

/-- What the counter of an item has, zero if it has none. -/
def getAvailable (s : σ) (warehouseId : WarehouseId) (sku : Sku) : σ × Int :=
  match redis.get s (stockKey warehouseId sku) with
  | (s', some v) => (s', number v)
  | (s', none) => (s', 0)

/-- `reserve`, with the id that `randomUUID()` draws. -/
def reserve (s : σ) (warehouseId : WarehouseId) (sku : Sku) (qty ttlSeconds : Int)
    (reservationId : ReservationId) : σ × Except RedisError ReservationResult :=
  if qty ≤ 0 then (s, .ok (.rejected .INVALID_QTY none))
  else
    match redis.evalReserve s (stockKey warehouseId sku) (reservationKey reservationId) qty
      reservationId ttlSeconds with
    | (s', .ok (.INSUFFICIENT_STOCK, value)) =>
      (s', .ok (.rejected .INSUFFICIENT_STOCK (some value)))
    | (s', .ok (.UNKNOWN_SKU, value)) => (s', .ok (.rejected .UNKNOWN_SKU (some value)))
    | (s', .ok (.OK, value)) => (s', .ok (.accepted reservationId value))
    | (s', .error e) => (s', .error e)

/-- What `release` and `commit` have in common: one evaluation of `release.lua`. -/
def resolve (s : σ) (warehouseId : WarehouseId) (sku : Sku) (reservationId : ReservationId)
    (mode : String) : σ × Except RedisError ReleaseStatus :=
  match redis.evalRelease s (stockKey warehouseId sku) (reservationKey reservationId) mode with
  | (s', .ok (status, _)) => (s', .ok status)
  | (s', .error e) => (s', .error e)

/-- Return a reservation to the counter. -/
def release (s : σ) (warehouseId : WarehouseId) (sku : Sku) (reservationId : ReservationId) :
    σ × Except RedisError ReleaseStatus :=
  redis.resolve s warehouseId sku reservationId "RELEASE"

/-- Consume a reservation. -/
def commit (s : σ) (warehouseId : WarehouseId) (sku : Sku) (reservationId : ReservationId) :
    σ × Except RedisError ReleaseStatus :=
  redis.resolve s warehouseId sku reservationId "COMMIT"

end RedisLike

/-! ## Sequences of calls -/

/-- A call of the service, or time that passes between two. -/
inductive InventoryCall where
  /-- `setStock` -/
  | setStock (warehouseId : WarehouseId) (sku : Sku) (qty : Int)
  /-- `getAvailable` -/
  | getAvailable (warehouseId : WarehouseId) (sku : Sku)
  /-- The id is the one that `randomUUID()` draws. -/
  | reserve (warehouseId : WarehouseId) (sku : Sku) (qty ttlSeconds : Int)
      (reservationId : ReservationId)
  /-- `release` -/
  | release (warehouseId : WarehouseId) (sku : Sku) (reservationId : ReservationId)
  /-- `commit` -/
  | commit (warehouseId : WarehouseId) (sku : Sku) (reservationId : ReservationId)
  /-- The clock advances by some milliseconds. -/
  | elapse (ms : Nat)

/-- The time to live of a reservation is a positive integer, as a number of JavaScript. -/
def InventoryCall.PositiveTtl : InventoryCall → Prop
  | .reserve _ _ _ ttlSeconds _ => Decimal.IsDouble ttlSeconds ∧ 0 < ttlSeconds
  | _ => True

instance (call : InventoryCall) : Decidable call.PositiveTtl := by
  cases call <;> unfold InventoryCall.PositiveTtl <;> infer_instance

/-- What a call resolves to, or the error that it rejects with. -/
inductive InventoryReply where
  /-- Of `setStock`. -/
  | done
  /-- Of `getAvailable`. -/
  | available (qty : Int)
  /-- Of `reserve`. -/
  | reserved (result : Except RedisError ReservationResult)
  /-- Of `release` and `commit`. -/
  | resolved (result : Except RedisError ReleaseStatus)

/-- A client with its clock, and what a reader finds at a key. -/
structure Deployment (σ : Type) where
  /-- What the service calls. -/
  redis : RedisLike σ
  /-- Some milliseconds pass. -/
  elapse : σ → Nat → σ
  /-- What a reader of the key finds. -/
  value : σ → String → Option String

namespace Deployment

/-- The exact server. -/
def server : Deployment Redis where
  redis := .server
  elapse := Redis.elapse
  value r key := (r.lookup key).map toString

/-- The stand-in. -/
def inMemory : Deployment InMemoryRedisClient where
  redis := .inMemory
  elapse := InMemoryRedisClient.elapse
  value := InMemoryRedisClient.value

variable {σ : Type} (d : Deployment σ)

/-- One call of the service. -/
def call (s : σ) : InventoryCall → σ × InventoryReply
  | .setStock w sku qty => (d.redis.setStock s w sku qty, .done)
  | .getAvailable w sku => (d.redis.getAvailable s w sku).map id .available
  | .reserve w sku qty ttl resv => (d.redis.reserve s w sku qty ttl resv).map id .reserved
  | .release w sku resv => (d.redis.release s w sku resv).map id .resolved
  | .commit w sku resv => (d.redis.commit s w sku resv).map id .resolved
  | .elapse ms => (d.elapse s ms, .done)

/-- What can be seen of a sequence of calls: after each call its reply, and the live keys with their
values. -/
def trace (s : σ) : List InventoryCall → List (InventoryReply × (String → Option String))
  | [] => []
  | c :: calls =>
    let (s', reply) := d.call s c
    (reply, d.value s') :: trace s' calls

end Deployment

namespace InMemoryRedisClient

/-- The numbers of the live keys are exact. -/
def Ranged (c : InMemoryRedisClient) : Prop :=
  ∀ key text, c.value key = some text → (number text).natAbs < 2 ^ 53

/-- The levels are exact all along a sequence of calls, and the times to live are positive. -/
def Representable : InMemoryRedisClient → List InventoryCall → Prop
  | c, [] => c.Ranged
  | c, call :: calls => c.Ranged ∧ call.PositiveTtl ∧ Representable (Deployment.inMemory.call c call).1 calls

/-- If the call is a reservation that the stock covers, its deadline has at most 63 bits. -/
def TimelyCall (c : InMemoryRedisClient) : InventoryCall → Prop
  | .reserve w sku qty ttlSeconds _ =>
    0 < qty → ∀ text, c.value (InventoryService.stockKey w sku) = some text → qty ≤ number text →
      c.now + 1000 * ttlSeconds < 2 ^ 63
  | _ => True

/-- Every call of the list is made when it is timely. -/
def Timely : InMemoryRedisClient → List InventoryCall → Prop
  | _, [] => True
  | c, call :: calls => c.TimelyCall call ∧ Timely (Deployment.inMemory.call c call).1 calls

end InMemoryRedisClient

end SupplyChain
