import SupplyChain.Inventory.InventoryService

/-!
# The history of the inventory

A run of the inventory: operations of any number of `InventoryService` instances, one at a time on one
server, with time passing in between. What the operations were answered is kept, and the ledger reads
all its quantities off these answers; it never looks at the keyspace.
-/

namespace SupplyChain

open InventoryService

/-- An operation that anybody may run on the inventory, or time that passes. -/
inductive Op where
  /-- `setStock` -/
  | setStock (warehouseId : WarehouseId) (sku : Sku) (qty : Int)
  /-- `reserve`, with the id that it draws. -/
  | reserve (warehouseId : WarehouseId) (sku : Sku) (qty ttlSeconds : Int)
      (reservationId : ReservationId)
  /-- `release` -/
  | release (warehouseId : WarehouseId) (sku : Sku) (reservationId : ReservationId)
  /-- `commit` -/
  | commit (warehouseId : WarehouseId) (sku : Sku) (reservationId : ReservationId)
  /-- Time passes. -/
  | elapse (ms : Nat)

/-- The time that passes. -/
def Op.ms : Op → Nat
  | .elapse ms => ms
  | _ => 0

/-- The time to live of a reservation is positive. -/
def Op.Lasting : Op → Prop
  | .reserve _ _ _ ttlSeconds _ => 0 < ttlSeconds
  | _ => True

/-- What an operation is answered. -/
inductive Reply where
  /-- Of `setStock`, and of time passing. -/
  | done
  /-- Of `reserve`. -/
  | reserved (result : Except RedisError ReservationResult)
  /-- Of `release` and `commit`. -/
  | resolved (result : Except RedisError ReleaseStatus)

/-- Run an operation on the exact server. -/
def Op.run : Op → Redis → Redis × Reply
  | .setStock warehouseId sku qty, redis =>
    (InventoryService.setStock redis warehouseId sku qty, .done)
  | .reserve warehouseId sku qty ttlSeconds id, redis =>
    let (redis, result) := InventoryService.reserve redis warehouseId sku qty ttlSeconds id
    (redis, .reserved result)
  | .release warehouseId sku id, redis =>
    let (redis, result) := InventoryService.release redis warehouseId sku id
    (redis, .resolved result)
  | .commit warehouseId sku id, redis =>
    let (redis, result) := InventoryService.commit redis warehouseId sku id
    (redis, .resolved result)
  | .elapse ms, redis => (redis.elapse ms, .done)

/-- An operation that was run, and its answer. -/
structure Event where
  /-- What was called. -/
  op : Op
  /-- What it came to. -/
  reply : Reply

/-- A reservation that was accepted, and the time from which it has lapsed. -/
structure Grant where
  /-- Its pair and its id. -/
  reservation : Reservation
  /-- How many units it holds. -/
  qty : Int
  /-- When its time to live ends. -/
  expireAt : Nat

namespace Grant

/-- The id that it is released or committed by. -/
abbrev id (g : Grant) : ReservationId := g.reservation.reservationId

/-- The item whose counter the quantity was taken from. -/
abbrev item (g : Grant) : String := itemName g.reservation.warehouseId g.reservation.sku

end Grant

namespace Event

/-- How long the event took; only waiting takes time. -/
def ms (e : Event) : Nat := e.op.ms

/-- The value to which the event sets the counter of an item. -/
def sets (item : String) : Event → Option Int
  | ⟨.setStock warehouseId sku qty, _⟩ =>
    if itemName warehouseId sku = item then some qty else none
  | _ => none

/-- The reservation that the event accepts at the time `now`. -/
def grant (now : Nat) : Event → Option Grant
  | ⟨.reserve warehouseId sku qty ttlSeconds _, .reserved (.ok (.accepted id _))⟩ =>
    some ⟨⟨warehouseId, sku, id⟩, qty, now + 1000 * ttlSeconds.toNat⟩
  | _ => none

/-- The reservation that the event has released. -/
def released : Event → Option ReservationId
  | ⟨.release _ _ id, .resolved (.ok .RELEASED)⟩ => some id
  | _ => none

/-- The reservation that the event has committed. -/
def committed : Event → Option ReservationId
  | ⟨.commit _ _ id, .resolved (.ok .COMMITTED)⟩ => some id
  | _ => none

end Event

/-- The events of a run, the last one first. -/
abbrev Trace := List Event

namespace Trace

variable (tr : Trace) (item : String)

/-- How much time has passed. -/
def clock : Trace → Nat
  | [] => 0
  | e :: tr => clock tr + e.ms

/-- The reservations that were granted, the latest first. -/
def grants : Trace → List Grant
  | [] => []
  | e :: tr => (e.grant (clock tr)).toList ++ grants tr

/-- The reservations that were released, the latest first. -/
def released : List ReservationId := tr.filterMap Event.released

/-- The reservations that were committed, the latest first. -/
def committed : List ReservationId := tr.filterMap Event.committed

/-- The values to which the counter of an item was set, the last one first. -/
def sets : List Int := tr.filterMap (Event.sets item)

/-- What the counter was set to last, zero if it never was. -/
def lastSet : Int := (sets tr item).headD 0

/-- The events since the counter of an item was set last. -/
def since : Trace := tr.takeWhile fun e => (e.sets item).isNone

/-- The reservation was neither released nor committed. -/
def Open (g : Grant) : Prop := g.id ∉ released tr ∧ g.id ∉ committed tr

/-- The reservation is neither resolved nor past its time to live. -/
def Live (g : Grant) : Prop := Open tr g ∧ clock tr < g.expireAt

/-- The reservation is past its time to live and was never resolved. -/
def Lapsed (g : Grant) : Prop := Open tr g ∧ g.expireAt ≤ clock tr

instance (g : Grant) : Decidable (Open tr g) := by
  unfold Open
  infer_instance

instance (g : Grant) : Decidable (Live tr g) := by
  unfold Live
  infer_instance

instance (g : Grant) : Decidable (Lapsed tr g) := by
  unfold Lapsed
  infer_instance

/-- The quantity of an item in those of the accepted reservations that satisfy `p`. -/
def total (p : Grant → Prop) [DecidablePred p] : Int :=
  ((grants tr).map fun g => if g.item = item ∧ p g then g.qty else 0).sum

/-- The quantity of an item that was accepted since its counter was set. -/
def acceptedSince : Int := total (since tr item) item fun _ => True

/-- The quantity of an item that was released since its counter was set. -/
def releasedSince : Int := total tr item fun g => g.id ∈ released (since tr item)

/-- The quantity of an item that was committed. -/
def committedQty : Int := total tr item fun g => g.id ∈ committed tr

/-- The quantity of an item that live reservations hold. -/
def liveQty : Int := total tr item (Live tr)

/-- The quantity of an item in reservations that were not resolved. -/
def openQty : Int := total tr item (Open tr)

/-- Counters are set to non-negative values, a drawn id was not drawn before, and whoever resolves a reservation
names the pair that it was taken from. -/
def Proper : Op → Prop
  | .setStock _ _ qty => 0 ≤ qty
  | .reserve _ _ _ _ id => ∀ g ∈ grants tr, g.id ≠ id
  | .release warehouseId sku id => ∀ g ∈ grants tr, g.id = id → g.reservation = ⟨warehouseId, sku, id⟩
  | .commit warehouseId sku id => ∀ g ∈ grants tr, g.id = id → g.reservation = ⟨warehouseId, sku, id⟩
  | .elapse _ => True

/-- A proper operation, with a time to live that is positive. -/
def Admissible (op : Op) : Prop := op.Lasting ∧ Proper tr op

end Trace

/-- The runs of the exact model. -/
inductive Run : Trace → Redis → Prop where
  /-- A server without keys. -/
  | start : Run [] Redis.empty
  /-- One operation more. -/
  | step {tr : Trace} {redis : Redis} (h : Run tr redis) (op : Op) (ha : Trace.Admissible tr op) :
      Run (⟨op, (op.run redis).2⟩ :: tr) (op.run redis).1

/-- A release is answered `RELEASED` or `ALREADY_RESOLVED`, a commit `COMMITTED` or
`ALREADY_RESOLVED`. -/
def Event.Answered : Event → Prop
  | ⟨.release _ _ _, reply⟩ =>
    reply = .resolved (.ok .RELEASED) ∨ reply = .resolved (.ok .ALREADY_RESOLVED)
  | ⟨.commit _ _ _, reply⟩ =>
    reply = .resolved (.ok .COMMITTED) ∨ reply = .resolved (.ok .ALREADY_RESOLVED)
  | _ => True

end SupplyChain
