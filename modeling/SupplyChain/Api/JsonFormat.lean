import SupplyChain.Types
import SupplyChain.Text.Json

/-!
# Orders and events as JSON

The values that `JSON.stringify` is called with, where `number` says which number an amount or a time is. A
property that is `undefined` is not written.
-/

namespace SupplyChain

/-- The text of an event type. -/
def EventType.text : EventType → String
  | created => "order.created"
  | inventoryReserved => "order.inventory_reserved"
  | paymentCharged => "order.payment_charged"
  | shippingScheduled => "order.shipping_scheduled"
  | confirmed => "order.confirmed"
  | compensating => "order.compensating"
  | cancelled => "order.cancelled"

/-- The text of a status. -/
def OrderStatus.text : OrderStatus → String
  | CREATED => "CREATED"
  | INVENTORY_RESERVED => "INVENTORY_RESERVED"
  | PAYMENT_CHARGED => "PAYMENT_CHARGED"
  | SHIPPING_SCHEDULED => "SHIPPING_SCHEDULED"
  | CONFIRMED => "CONFIRMED"
  | COMPENSATING => "COMPENSATING"
  | CANCELLED => "CANCELLED"
  | FAILED => "FAILED"

variable {ν : Type} (number : Int → ν)

/-- The string, or `null`. -/
def stringOrNull : Option String → Json ν
  | some s => .string s
  | none => .null

/-- A line, as `{ sku, qty, warehouseId }`. -/
def OrderLine.json (line : OrderLine) : Json ν :=
  .object [("sku", .string line.sku), ("qty", .number (number line.qty)),
    ("warehouseId", .string line.warehouseId)]

/-- A reservation, as it is recorded. -/
def Reservation.json (r : Reservation) : Json ν :=
  .object [("warehouseId", .string r.warehouseId), ("sku", .string r.sku),
    ("reservationId", .string r.reservationId)]

/-- The fields of a detail. -/
def EventDetail.fields (d : EventDetail) : List (String × Option (Json ν)) :=
  [("reservations", d.reservations.map fun rs => .array (rs.map Reservation.json)),
    ("paymentId", d.paymentId.map .string),
    ("shipmentId", d.shipmentId.map .string),
    ("reason", d.reason.map .string),
    ("sku", d.sku.map .string),
    ("warehouseId", d.warehouseId.map .string),
    ("previousStatus", d.previousStatus.map fun status => .string status.text),
    ("customerId", d.customerId.map .string),
    ("lines", d.lines.map fun lines => .array (lines.map fun line => line.json number)),
    ("amountCents", d.amountCents.map fun cents => .number (number cents)),
    ("businessId", d.businessId.map stringOrNull)]

/-- The properties of a detail that are there. -/
def EventDetail.properties (d : EventDetail) : List (String × Json ν) :=
  (d.fields number).filterMap fun field => field.2.map fun value => (field.1, value)

/-- `JSON.stringify(event)`, as a value. -/
def DomainEvent.json (e : DomainEvent) : Json ν :=
  .object [("type", .string e.type.text),
    ("payload", .object (("orderId", .string e.orderId) :: e.payload.properties number)),
    ("at", .number (number e.at)), ("key", .string e.key)]

end SupplyChain
