import SupplyChain.Orders.AuditTrail
import SupplyChain.Orders.Outcomes
import SupplyChain.Orders.Recovery

/-!
# What a sweep has to undo

What the histories of stuck orders say was done for them, read off all their events.
-/

namespace SupplyChain

open InventoryService

namespace Order

/-- The reservations that the history records. -/
def recorded (o : Order) : List Reservation :=
  o.history.flatMap fun e => e.detail.reservations.getD []

/-- The history has an event of this type. -/
def Records (o : Order) (type : EventType) : Prop := ∃ e ∈ o.history, e.type = type

instance (o : Order) (type : EventType) : Decidable (o.Records type) :=
  inferInstanceAs (Decidable (∃ e ∈ o.history, e.type = type))

/-- The history is as `run` and `recoverStuck` write it: a trail, with reservations in the event that
says that they were made. -/
structure WellRecorded (o : Order) : Prop where
  /-- The history is a trail. -/
  trail : AuditTrail o.types
  /-- Reservations are recorded where they were made. -/
  reservations : ∀ e ∈ o.history, e.detail.reservations.isSome = true → e.type = .inventoryReserved

end Order

/-- The holdings after those of the orders that record an event of the type are given back. -/
def givenBack (os : List Order) (type : EventType) (holdings : OrderId → Option String) (id : OrderId) :
    Option String :=
  if ∃ o ∈ os, o.id = id ∧ o.Records type then none else holdings id

/-- What the recovery of the orders `stuck` makes of the world `w`. -/
structure AllRecovered (stuck : List Order) (w w' : World) : Prop where
  /-- A second sweep would find nothing. -/
  none_stuck : w'.store.nonTerminal = []
  /-- Terminal orders are left alone. -/
  terminal : ∀ {id o}, w.store.get id = some o → isTerminalStatus o.status = true →
    w'.store.get id = some o
  /-- Each of the orders is cancelled. -/
  cancelled : ∀ o ∈ stuck, storedStatus w' o.id = some .CANCELLED
  /-- Each counter has grown by the live reservations of its item. -/
  stock : ∀ warehouseId sku, getAvailable w'.redis warehouseId sku =
    getAvailable w.redis warehouseId sku +
      onHold w.redis (stuck.flatMap Order.recorded) (itemName warehouseId sku)
  /-- What they record is not live any more. -/
  held : ∀ id, held w'.redis id =
    if id ∈ (stuck.flatMap Order.recorded).map Reservation.reservationId then none else held w.redis id
  /-- What they record as charged is refunded. -/
  charges : ∀ id, w'.payments.charges id = givenBack stuck .paymentCharged w.payments.charges id
  /-- What they record as shipped is cancelled. -/
  shipments : ∀ id, w'.shipping.shipments id =
    givenBack stuck .shippingScheduled w.shipping.shipments id

end SupplyChain
