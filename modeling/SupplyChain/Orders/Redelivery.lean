import SupplyChain.Orders.Crash

/-!
# Redelivered events

At-least-once delivery hands the same event to the handler again. Here each execution that a delivery
starts has ended before the next delivery, and no reservation lapses meanwhile.
-/

namespace SupplyChain

open Async InventoryService SagaOrchestrator

/-- One delivery, and the execution that it starts. -/
def deliverOnce (event : DomainEvent) (w : World) : World :=
  match sagaRunner event with
  | none => w
  | some saga => (saga.exec participate w).1

/-- The event is delivered `n` times, one execution after the other, in less time than a reservation lives. -/
def deliver (event : DomainEvent) (n : Nat) (w : World) : World := (deliverOnce event)^[n] w

/-- Nothing stands in the way of the order: its lines fit the stock, and no failure is injected. -/
def Confirms (o : Order) (w : World) : Prop :=
  (∀ warehouseId sku,
    lineDemand o.lines (itemName warehouseId sku) ≤ getAvailable w.redis warehouseId sku) ∧
  w.payments.failPaymentForOrderIds o.id = false ∧ w.shipping.failShippingForOrderIds o.id = false

/-- The two worlds agree on the stock and on the charge, the shipment and the status of the order. -/
def SameFor (o : Order) (w w' : World) : Prop :=
  (∀ warehouseId sku,
    getAvailable w'.redis warehouseId sku = getAvailable w.redis warehouseId sku) ∧
  w'.payments.charges o.id = w.payments.charges o.id ∧
  w'.shipping.shipments o.id = w.shipping.shipments o.id ∧
  storedStatus w' o.id = storedStatus w o.id

/-- The injected failures are the same in both worlds. -/
def SameFaults (w w' : World) : Prop :=
  w'.payments.failPaymentForOrderIds = w.payments.failPaymentForOrderIds ∧
    w'.shipping.failShippingForOrderIds = w.shipping.failShippingForOrderIds

end SupplyChain
