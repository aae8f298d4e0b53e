import SupplyChain.Async.Program
import SupplyChain.Inventory.InventoryService
import SupplyChain.Orders.OrderStore
import SupplyChain.Orders.Participants

/-!
# `SagaOrchestrator`

The saga of `sagaOrchestrator.ts`, the startup sweep of `recoverStuckOrders.ts` and the event handler
of `asyncSagaRunner.ts`, as programs over the awaited calls of their participants. A call takes effect
in one step; between two calls of one execution, others may act. `Date.now()` and `randomUUID()` are
read in the same synchronous stretch as the call they feed, so the handler of that call reads them.
-/

namespace SupplyChain

open Async

/-- `ORDERS_TOPIC` -/
def ORDERS_TOPIC : String := "orders"

/-- Everything the executions of the saga share. -/
structure World where
  /-- What `Date.now()` gives. -/
  clock : Nat
  /-- The server of `InventoryService`. -/
  redis : Redis
  /-- The source of ids, and how many have been drawn. -/
  uuids : UuidSource
  /-- How many ids have been drawn. -/
  drawn : Nat
  /-- The order store. -/
  store : OrderStore
  /-- The payment gateway. -/
  payments : PaymentGateway
  /-- The shipping provider. -/
  shipping : ShippingProvider
  /-- The log of the topic. -/
  published : List DomainEvent

/-- What an execution can reject with. -/
inductive SagaError where
  /-- `Unknown order ${id}`. -/
  | unknownOrder (id : OrderId)
  /-- A script or a command has failed. -/
  | redis (e : RedisError)
  deriving DecidableEq

/-- The awaited calls, and `fields`, the synchronous reading of a record that was fetched earlier. -/
inductive Call where
  /-- `orderStore.create`, with a new id. -/
  | create (customerId : String) (lines : List OrderLine) (amountCents : Int)
      (businessId : Option String)
  /-- `orderStore.get` -/
  | get (id : OrderId)
  /-- `orderStore.nonTerminal` -/
  | nonTerminal
  /-- The fields of an object that `nonTerminal` has returned, read again. -/
  | fields (order : Order)
  /-- `orderStore.updateStatus` -/
  | updateStatus (id : OrderId) (status : OrderStatus) (type : EventType) (detail : EventDetail)
  /-- `bus.publish` -/
  | publish (orderId : OrderId) (type : EventType) (payload : EventDetail)
  /-- `inventory.reserve` -/
  | reserve (warehouseId : WarehouseId) (sku : Sku) (qty : Int)
  /-- `inventory.release` -/
  | release (warehouseId : WarehouseId) (sku : Sku) (reservationId : ReservationId)
  /-- `inventory.commit` -/
  | commit (warehouseId : WarehouseId) (sku : Sku) (reservationId : ReservationId)
  /-- `payments.charge` -/
  | charge (orderId : OrderId) (amountCents : Int)
  /-- `payments.refund` -/
  | refund (orderId : OrderId)
  /-- `shipping.schedule` -/
  | schedule (orderId : OrderId) (warehouseId : WarehouseId)
  /-- `shipping.cancel` -/
  | cancel (orderId : OrderId)
  deriving DecidableEq

/-- What each call resolves to. -/
abbrev Call.Reply : Call → Type
  | .create .. => OrderId
  | .get _ => Option Order
  | .nonTerminal => List Order
  | .fields _ => Order
  | .updateStatus .. => Unit
  | .publish .. => Unit
  | .reserve .. => ReservationResult
  | .release .. => ReleaseStatus
  | .commit .. => ReleaseStatus
  | .charge .. => PaymentResult
  | .refund _ => Bool
  | .schedule .. => ShippingResult
  | .cancel _ => Unit

/-- The interface between the saga and its participants. -/
abbrev participants : Interface := ⟨Call, Call.Reply⟩

/-- An asynchronous function of the saga. -/
abbrev Saga (α : Type) := Prog participants SagaError α

/-- What the participants do. -/
def participate : Handler participants SagaError World
  | .create customerId lines amountCents businessId, w =>
    let order : Order :=
      { id := w.uuids.draw w.drawn, customerId, businessId, lines, amountCents, status := .CREATED,
        history := [], createdAt := w.clock }
    ({ w with store := w.store.create order, drawn := w.drawn + 1 }, .ok order.id)
  | .get id, w => (w, .ok (w.store.get id))
  | .nonTerminal, w => (w, .ok w.store.nonTerminal)
  | .fields order, w => (w, .ok (w.store.fields order))
  | .updateStatus id status type detail, w =>
    match w.store.updateStatus id status ⟨type, w.clock, detail⟩ with
    | some store => ({ w with store }, .ok ())
    | none => (w, .error (.unknownOrder id))
  | .publish orderId type payload, w =>
    let event : DomainEvent := { type, orderId, payload, «at» := w.clock, key := orderId }
    ({ w with published := w.published ++ [event] }, .ok ())
  | .reserve warehouseId sku qty, w =>
    match InventoryService.reserve w.redis warehouseId sku qty
      InventoryService.DEFAULT_RESERVATION_TTL_SECONDS (w.uuids.draw w.drawn) with
    | (redis, .ok result) => ({ w with redis, drawn := w.drawn + 1 }, .ok result)
    | (redis, .error e) => ({ w with redis, drawn := w.drawn + 1 }, .error (.redis e))
  | .release warehouseId sku reservationId, w =>
    match InventoryService.release w.redis warehouseId sku reservationId with
    | (redis, .ok status) => ({ w with redis }, .ok status)
    | (redis, .error e) => ({ w with redis }, .error (.redis e))
  | .commit warehouseId sku reservationId, w =>
    match InventoryService.commit w.redis warehouseId sku reservationId with
    | (redis, .ok status) => ({ w with redis }, .ok status)
    | (redis, .error e) => ({ w with redis }, .error (.redis e))
  | .charge orderId amountCents, w =>
    let (payments, result) := w.payments.charge orderId amountCents
    ({ w with payments }, .ok result)
  | .refund orderId, w =>
    let (payments, alreadyRefunded) := w.payments.refund orderId
    ({ w with payments }, .ok alreadyRefunded)
  | .schedule orderId warehouseId, w =>
    let (shipping, result) := w.shipping.schedule orderId warehouseId
    ({ w with shipping }, .ok result)
  | .cancel orderId, w => ({ w with shipping := w.shipping.cancel orderId }, .ok ())

namespace SagaOrchestrator

/-- A participant is called and its reply awaited. -/
abbrev await (c : Call) : Saga c.Reply := Prog.await (S := participants) c

/-- `mustGet` -/
def mustGet (id : OrderId) : Saga Order := do
  match ← await (.get id) with
  | some order => return order
  | none => .throw (.unknownOrder id)

/-- `transition`: the store first, the bus second. -/
def transition (orderId : OrderId) (status : OrderStatus) (eventType : EventType)
    (detail : EventDetail) : Saga Unit := do
  await (.updateStatus orderId status eventType detail)
  await (.publish orderId eventType detail)

/-- `fail`: a `reason` in `detail` replaces the given one, as in `{ reason, ...detail }`. -/
def fail (orderId : OrderId) (reason : String) (detail : EventDetail) : Saga Unit :=
  transition orderId .CANCELLED .cancelled (EventDetail.spread { reason := some reason } detail)

/-- The `completed` flags of `compensate`. -/
structure Completed where
  /-- The payment step is complete. -/
  paid : Bool
  /-- The shipping step is complete. -/
  shipped : Bool
  deriving DecidableEq

/-- The loop of `compensate` over the reservations. -/
def releaseAll (reservations : List Reservation) : Saga Unit := do
  for r in reservations do
    let _ ← await (.release r.warehouseId r.sku r.reservationId)

/-- `compensate`: the steps that are complete, in reverse. -/
def compensate (order : Order) (reservations : List Reservation) (completed : Completed) :
    Saga Unit := do
  transition order.id .COMPENSATING .compensating {}
  if completed.shipped then
    await (.cancel order.id)
  if completed.paid then
    let _ ← await (.refund order.id)
  releaseAll reservations

/-- Step 1 of `run`: reserve inventory for every line. It stops at the first line that is rejected and
returns that line and the reservations made before it. -/
def reserveLines : List OrderLine → List Reservation →
    Saga (Except (OrderLine × List Reservation) (List Reservation))
  | [], reservations => return .ok reservations
  | line :: rest, reservations => do
    match ← await (.reserve line.warehouseId line.sku line.qty) with
    | .rejected _ _ => return .error (line, reservations)
    | .accepted reservationId _ =>
      reserveLines rest
        (reservations ++ [⟨line.warehouseId, line.sku, reservationId⟩])

/-- An exit of `run` after a failure: undo what was completed, cancel the order and return it. -/
def abort (orderId : OrderId) (order : Order) (reservations : List Reservation)
    (completed : Completed) (reason : String) (detail : EventDetail) : Saga Order := do
  compensate order reservations completed
  fail order.id reason detail
  mustGet orderId

/-- The loop of step 4 over the reservations. -/
def commitAll (reservations : List Reservation) : Saga Unit := do
  for r in reservations do
    let _ ← await (.commit r.warehouseId r.sku r.reservationId)

/-- Step 4 of `run`: confirm, committing the reservations permanently. -/
def confirm (orderId : OrderId) (order : Order) (reservations : List Reservation) : Saga Order := do
  commitAll reservations
  transition order.id .CONFIRMED .confirmed {}
  mustGet orderId

/-- Step 3 of `run`: schedule shipping from the warehouse of the first line. -/
def ship (orderId : OrderId) (order : Order) (reservations : List Reservation) : Saga Order := do
  let primaryWarehouse := (order.lines.head?.map (·.warehouseId)).getD "unknown"
  match ← await (.schedule order.id primaryWarehouse) with
  | .failed reason =>
    abort orderId order reservations { paid := true, shipped := false } "SHIPPING_FAILED"
      { reason := some reason }
  | .ok shipmentId =>
    transition order.id .SHIPPING_SCHEDULED .shippingScheduled { shipmentId := some shipmentId }
    confirm orderId order reservations

/-- Step 2 of `run`: charge payment. -/
def pay (orderId : OrderId) (order : Order) (reservations : List Reservation) : Saga Order := do
  match ← await (.charge order.id order.amountCents) with
  | .failed reason =>
    abort orderId order reservations { paid := false, shipped := false } "PAYMENT_FAILED"
      { reason := some reason }
  | .ok paymentId =>
    transition order.id .PAYMENT_CHARGED .paymentCharged { paymentId := some paymentId }
    ship orderId order reservations

/-- `run`: the full saga, to completion or to a clean rollback. -/
def run (orderId : OrderId) : Saga Order := do
  let order ← mustGet orderId
  match ← reserveLines order.lines [] with
  | .error (line, reservations) =>
    abort orderId order reservations { paid := false, shipped := false } "INVENTORY_UNAVAILABLE"
      { sku := some line.sku, warehouseId := some line.warehouseId }
  | .ok reservations =>
    transition order.id .INVENTORY_RESERVED .inventoryReserved { reservations := some reservations }
    pay orderId order reservations

/-- `reservationsFromHistory` -/
def reservationsFromHistory (order : Order) : List Reservation :=
  ((order.history.find? fun h => h.type = .inventoryReserved).bind (·.detail.reservations)).getD []

/-- The `completed` flags that `recoverStuck` reads off the history. -/
def completedFromHistory (order : Order) : Completed where
  paid := order.history.any fun h => h.type = .paymentCharged
  shipped := order.history.any fun h => h.type = .shippingScheduled

/-- `recoverStuck`. The record may be live, so its fields are read where the source reads them: on
entry, and for `previousStatus` after the compensation. -/
def recoverStuck (order : Order) : Saga Order := do
  let entry ← await (.fields order)
  if isTerminalStatus entry.status then return entry
  compensate order (reservationsFromHistory entry) (completedFromHistory entry)
  let later ← await (.fields order)
  fail order.id "RECOVERED_AFTER_RESTART" { previousStatus := some later.status }
  mustGet order.id

/-- `createOrder` -/
def createOrder (customerId : String) (lines : List OrderLine) (amountCents : Int)
    (businessId : Option String) : Saga OrderId := do
  let id ← await (.create customerId lines amountCents businessId)
  await (.publish id .created
    { customerId := some customerId, lines := some lines, amountCents := some amountCents,
      businessId := some businessId })
  return id

end SagaOrchestrator

open SagaOrchestrator

/-- The loop of `recoverStuckOrders` over the orders it found. -/
def recoverEach (stuck : List Order) : Saga Unit := do
  for order in stuck do
    let _ ← recoverStuck order

/-- `recoverStuckOrders`: the startup sweep. -/
def recoverStuckOrders : Saga Nat := do
  let stuck ← await .nonTerminal
  recoverEach stuck
  return stuck.length

/-- The handler that `wireAsyncSagaExecution` subscribes to the `orders` topic: the execution that an
event starts. The handler does not wait for it. -/
def sagaRunner (event : DomainEvent) : Option (Saga Order) :=
  if event.type ≠ .created then none else some (run event.orderId)

end SupplyChain
