import SupplyChain.Orders.Accounts

/-!
# Where an order can end

The terms in which the results about the saga are stated.
-/

namespace SupplyChain

open InventoryService

/-- The status that is stored. -/
def storedStatus (w : World) (id : OrderId) : Option OrderStatus :=
  (w.store.get id).map Order.status

variable {ι : Type}

/-- Orders that have just been created, on a stock without reservations and at providers that hold
nothing. -/
structure Fresh (orders : ι → Order) (w : World) : Prop extends Ready orders w where
  /-- No saga has got anywhere. -/
  created : ∀ i, (orders i).status = .CREATED
  /-- Nothing is recorded. -/
  noHistory : ∀ i, (orders i).history = []
  /-- Every order has a line. -/
  lines : ∀ i, (orders i).lines ≠ []
  /-- Nothing is on hold. -/
  noReservation : ∀ id, held w.redis id = none
  /-- Nobody is charged. -/
  noCharge : ∀ id, w.payments.charges id = none
  /-- Nothing is scheduled. -/
  noShipment : ∀ id, w.shipping.shipments id = none

/-- The units of an item that the lines of the confirmed orders ask for. -/
def confirmedDemand [Fintype ι] (orders : ι → Order) (w : World) (item : String) : Int :=
  ∑ i, if storedStatus w (orders i).id = some .CONFIRMED then lineDemand (orders i).lines item else 0

/-! ## A small world to start from -/

/-- An order as `createOrder` stores it, with the given lines. -/
def freshOrder (id : OrderId) (lines : List OrderLine) : Order :=
  { id, customerId := "customer", businessId := none, lines, amountCents := 100, status := .CREATED,
    history := [], createdAt := 0 }

/-- A world with some stored orders, one item in stock, and the failures to inject. -/
def startWorld (driver : StoreDriver) (orders : List Order) (qty : Int)
    (failPayment failShipping : OrderId → Bool) : World where
  clock := 0
  redis := setStock Redis.empty "warehouse" "sku" qty
  uuids := .unary
  drawn := 0
  store := orders.foldl OrderStore.create (.empty driver)
  payments := ⟨fun _ => none, failPayment⟩
  shipping := ⟨fun _ => none, failShipping⟩
  published := []

end SupplyChain
