/-!
# Core domain types

The types of `types.ts` that the inventory and order modules share. Identifiers are strings;
quantities and amounts are integers, as the request schemas demand. A field that no modelled function
reads is left out (`updatedAt`, and the business profile types).
-/

namespace SupplyChain

/-- The name of a warehouse, as the API takes it. -/
abbrev WarehouseId := String

/-- The code of an item. -/
abbrev Sku := String

/-- The id of an order, a UUID that the store draws. -/
abbrev OrderId := String

/-- The id that `InventoryService.reserve` draws for a reservation. -/
abbrev ReservationId := String

/-- The `reason` of a rejected reservation. -/
inductive RejectReason where
  /-- The counter has fewer units than were asked for. -/
  | INSUFFICIENT_STOCK
  /-- The quantity is not positive. -/
  | INVALID_QTY
  /-- There is no counter for the item. -/
  | UNKNOWN_SKU
  deriving DecidableEq

/-- `ReservationResult`: `accepted` is `ok: true`, `rejected` is `ok: false`. -/
inductive ReservationResult where
  /-- The reservation's id, and what its counter has left. -/
  | accepted (reservationId : ReservationId) (remaining : Int)
  /-- What the counter has, where the script says so. -/
  | rejected (reason : RejectReason) (remaining : Option Int)
  deriving DecidableEq

/-- `OrderStatus` -/
inductive OrderStatus where
  /-- Stored, and its saga has not got anywhere. -/
  | CREATED
  /-- Every line is on hold. -/
  | INVENTORY_RESERVED
  /-- The customer has paid. -/
  | PAYMENT_CHARGED
  /-- A courier is booked. -/
  | SHIPPING_SCHEDULED
  /-- The units are consumed: the end of a saga that succeeds. -/
  | CONFIRMED
  /-- A step has failed, and what was done is being undone. -/
  | COMPENSATING
  /-- Everything is undone: the end of a saga that fails. -/
  | CANCELLED
  /-- A terminal status that no code stores. -/
  | FAILED
  deriving DecidableEq

/-- A line of an order: so many units of an item from a warehouse. -/
structure OrderLine where
  sku : Sku
  qty : Int
  warehouseId : WarehouseId
  deriving DecidableEq

/-- A reservation as the saga keeps it and as `order.inventory_reserved` records it. -/
structure Reservation where
  warehouseId : WarehouseId
  sku : Sku
  /-- The id under which the units are on hold. -/
  reservationId : ReservationId
  deriving DecidableEq

/-- The event types of an order, `order.created` to `order.cancelled`. -/
inductive EventType where
  /-- `order.created` -/
  | created
  /-- `order.inventory_reserved` -/
  | inventoryReserved
  /-- `order.payment_charged` -/
  | paymentCharged
  /-- `order.shipping_scheduled` -/
  | shippingScheduled
  /-- `order.confirmed` -/
  | confirmed
  /-- `order.compensating` -/
  | compensating
  /-- `order.cancelled` -/
  | cancelled
  deriving DecidableEq

/-- The `detail` of an order event and the `payload` of its publication: an object with some of these
fields. -/
structure EventDetail where
  /-- Of `order.inventory_reserved`: what is on hold for the order. -/
  reservations : Option (List Reservation) := none
  /-- Of `order.payment_charged`. -/
  paymentId : Option String := none
  /-- Of `order.shipping_scheduled`. -/
  shipmentId : Option String := none
  /-- Why an order was cancelled. -/
  reason : Option String := none
  /-- The item of the line that could not be reserved. -/
  sku : Option Sku := none
  /-- The warehouse of that line. -/
  warehouseId : Option WarehouseId := none
  /-- What the status was when a recovery found the order. -/
  previousStatus : Option OrderStatus := none
  /-- Of `order.created`, as are the next three. -/
  customerId : Option String := none
  lines : Option (List OrderLine) := none
  amountCents : Option Int := none
  businessId : Option (Option String) := none
  deriving DecidableEq

/-- `{ ...base, ...detail }`: a field of `detail` replaces the one of `base`. -/
def EventDetail.spread (base detail : EventDetail) : EventDetail where
  reservations := detail.reservations <|> base.reservations
  paymentId := detail.paymentId <|> base.paymentId
  shipmentId := detail.shipmentId <|> base.shipmentId
  reason := detail.reason <|> base.reason
  sku := detail.sku <|> base.sku
  warehouseId := detail.warehouseId <|> base.warehouseId
  previousStatus := detail.previousStatus <|> base.previousStatus
  customerId := detail.customerId <|> base.customerId
  lines := detail.lines <|> base.lines
  amountCents := detail.amountCents <|> base.amountCents
  businessId := detail.businessId <|> base.businessId

/-- An entry of an order's history. -/
structure OrderEvent where
  type : EventType
  «at» : Nat
  detail : EventDetail
  deriving DecidableEq

/-- `Order` -/
structure Order where
  /-- Drawn by the store. -/
  id : OrderId
  customerId : String
  /-- The business that the order is for, if it was placed in a session. -/
  businessId : Option String
  lines : List OrderLine
  amountCents : Int
  status : OrderStatus
  /-- The oldest event first. -/
  history : List OrderEvent
  /-- `Date.now()` at its creation. -/
  createdAt : Nat
  deriving DecidableEq

/-- `DomainEvent` on the `orders` topic: the payload carries `orderId` next to the detail. -/
structure DomainEvent where
  type : EventType
  /-- The order that the event is about. -/
  orderId : OrderId
  /-- The detail that was stored with the transition. -/
  payload : EventDetail
  «at» : Nat
  /-- The key by which Kafka would pick a partition: the order's id. -/
  key : OrderId
  deriving DecidableEq

/-- The source of `randomUUID()`: a stream of strings that never repeats. -/
structure UuidSource where
  /-- The id of the `n`-th draw. -/
  draw : Nat → String
  /-- No id is drawn twice. -/
  injective : Function.Injective draw

/-- The ids `x`, `xx`, `xxx` and so on. -/
def UuidSource.unary : UuidSource where
  draw n := String.ofList (List.replicate (n + 1) 'x')
  injective m n h := by
    have hlen := congrArg String.length h
    simpa using hlen

end SupplyChain
