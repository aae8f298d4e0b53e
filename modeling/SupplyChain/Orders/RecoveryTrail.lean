import SupplyChain.Orders.PgOrderStore
import SupplyChain.Orders.SagaOrchestrator

/-!
# What a recovery adds to the audit trail

`recoverStuck` over each of the two stores, with nothing else going on. The date of an event is what
`Date.now()` gives at that call, and the clock may be set back.
-/

namespace SupplyChain

open Async SagaOrchestrator

/-- The participants of the saga with `PgOrderStore`; the store of `world` is not used. -/
structure PgWorld (pg : Postgres) where
  /-- Everything but the orders. -/
  world : World
  /-- The orders. -/
  tables : Tables pg

/-- What a call comes to. A query that Postgres rejects is an error like that of an unknown order. -/
def participatePg {pg : Postgres} (ro : RowOrder) : Handler participants SagaError (PgWorld pg)
  | .create customerId lines amountCents businessId, w =>
    let order : Order :=
      { id := w.world.uuids.draw w.world.drawn, customerId, businessId, lines, amountCents,
        status := .CREATED, history := [], createdAt := w.world.clock }
    let world := { w.world with drawn := w.world.drawn + 1 }
    match w.tables.create order with
    | some tables => ({ w with world, tables }, .ok order.id)
    | none => ({ w with world }, .error (.unknownOrder order.id))
  | .get id, w =>
    match w.tables.get ro id none with
    | some order => (w, .ok order)
    | none => (w, .error (.unknownOrder id))
  | .nonTerminal, w =>
    match w.tables.fetch ro (.hydrateAll (w.tables.openOrders ro)) with
    | some orders => (w, .ok orders)
    | none => (w, .error (.unknownOrder ""))
  | .fields order, w => (w, .ok order)
  | .updateStatus id status type detail, w =>
    match w.tables.updateStatus id status ⟨type, w.world.clock, detail⟩ with
    | some tables => ({ w with tables }, .ok ())
    | none => (w, .error (.unknownOrder id))
  | c, w =>
    let (world, reply) := participate c w.world
    ({ w with world }, reply)

/-- The world when its clock shows `now`. -/
def World.atTime (now : Nat) (w : World) : World := { w with clock := now }

/-- The world when its clock shows `now`. -/
def PgWorld.atTime {pg : Postgres} (now : Nat) (w : PgWorld pg) : PgWorld pg :=
  { w with world := w.world.atTime now }

/-- The `n`-th call finds the clock at `now n`. The state counts the calls. -/
def timed {σ : Type} (atTime : Nat → σ → σ) (now : Nat → Nat) (handle : Handler participants SagaError σ) :
    Handler participants SagaError (σ × Nat) := fun c s =>
  let result := handle c (atTime (now s.2) s.1)
  ((result.1, s.2 + 1), result.2)

/-- Which call of a recovery stores `order.cancelled`; it is the second one that stores
`order.compensating`. -/
def cancellingCall (order : Order) : Nat :=
  let completed := completedFromHistory order
  4 + (if completed.shipped then 1 else 0) + (if completed.paid then 1 else 0) +
    (reservationsFromHistory order).length

/-- The detail that a recovery records with `order.cancelled`. -/
def recoveredDetail (previousStatus : OrderStatus) : EventDetail :=
  { reason := some "RECOVERED_AFTER_RESTART", previousStatus := some previousStatus }

/-- The order as it is stored before and after a recovery: its history goes on with the two events, the second
with the reason and with the status that the order had. -/
def RecoveryTrail (before after : Option Order) : Prop :=
  ∃ old new date date', before = some old ∧ after = some new ∧ new.history = old.history ++
    [⟨.compensating, date, {}⟩, ⟨.cancelled, date', recoveredDetail old.status⟩]

/-- `PgOrderStore` returns this order. -/
inductive Tables.Returns {pg : Postgres} (t : Tables pg) (order : Order) : Prop where
  /-- By its id. -/
  | get {ro : RowOrder} {id : OrderId} {scope : Scope} (h : t.get ro id scope = some (some order))
  /-- In the sweep. -/
  | nonTerminal {ro : RowOrder} {orders : List Order}
    (h : t.fetch ro (.hydrateAll (t.openOrders ro)) = some orders) (hmem : order ∈ orders)

end SupplyChain
