import SupplyChain.Types

/-!
# The payment gateway and the shipping provider

The mocks of `paymentGateway.ts` and `shippingProvider.ts`. They stand in for external services, so
their state is shared by all processes and survives a crash.
-/

namespace SupplyChain

/-- `PaymentResult` -/
inductive PaymentResult where
  /-- The charge was made. -/
  | ok (paymentId : String)
  /-- The charge was declined. -/
  | failed (reason : String)
  deriving DecidableEq

/-- `PaymentGateway`: the charges it holds, and the orders it declines (`FailureInjection`). -/
structure PaymentGateway where
  /-- The charge that stands for each order. -/
  charges : OrderId → Option String
  /-- The orders whose payment is made to fail. -/
  failPaymentForOrderIds : OrderId → Bool

namespace PaymentGateway

/-- `charge` -/
def charge (g : PaymentGateway) (orderId : OrderId) (_amountCents : Int) :
    PaymentGateway × PaymentResult :=
  if g.failPaymentForOrderIds orderId then (g, .failed "CARD_DECLINED")
  else
    let paymentId := "pay_" ++ orderId
    ({ g with charges := fun o => if o = orderId then some paymentId else g.charges o }, .ok paymentId)

/-- `refund`: the reply says whether there was nothing to refund (`alreadyRefunded`). -/
def refund (g : PaymentGateway) (orderId : OrderId) : PaymentGateway × Bool :=
  if (g.charges orderId).isNone then (g, true)
  else ({ g with charges := fun o => if o = orderId then none else g.charges o }, false)

end PaymentGateway

/-- `ShippingResult` -/
inductive ShippingResult where
  /-- A courier is booked. -/
  | ok (shipmentId : String)
  /-- No courier is to be had. -/
  | failed (reason : String)
  deriving DecidableEq

/-- `ShippingProvider`: the shipments it holds, and the orders it finds no courier for. -/
structure ShippingProvider where
  /-- The shipment that stands for each order. -/
  shipments : OrderId → Option String
  /-- The orders whose shipping is made to fail. -/
  failShippingForOrderIds : OrderId → Bool

namespace ShippingProvider

/-- `schedule` -/
def schedule (p : ShippingProvider) (orderId : OrderId) (_warehouseId : WarehouseId) :
    ShippingProvider × ShippingResult :=
  if p.failShippingForOrderIds orderId then (p, .failed "NO_COURIER_AVAILABLE")
  else
    let shipmentId := "ship_" ++ orderId
    ({ p with shipments := fun o => if o = orderId then some shipmentId else p.shipments o },
      .ok shipmentId)

/-- `cancel` -/
def cancel (p : ShippingProvider) (orderId : OrderId) : ShippingProvider :=
  { p with shipments := fun o => if o = orderId then none else p.shipments o }

end ShippingProvider

end SupplyChain
