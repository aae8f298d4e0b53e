import SupplyChain.Orders.AuditTrail
import SupplyChain.Orders.PgOrderStore

/-!
# Reads of `PgOrderStore` among transactions

The queries of a read are steps of their own; a transaction is one step, at its commit. The transactions on
one order draw the ids of their events while they hold the lock of its row, so these are in the order of the
commits. A transaction that fails changes nothing and is no step.
-/

namespace SupplyChain

open Collections

/-- The order that `createOrder` makes. -/
def newOrder (id : OrderId) (customerId : String) (lines : List OrderLine) (amountCents : Int)
    (businessId : Option String) (now : Nat) : Order :=
  { id, customerId, businessId, lines, amountCents, status := .CREATED, history := [], createdAt := now }

/-- The tables, and the reads that were started. -/
structure PgReads (pg : Postgres) where
  /-- The committed tables. -/
  tables : Tables pg
  /-- The reads, in the order in which they were started. -/
  readings : List Reading

/-- What can happen next. -/
inductive PgAction where
  /-- The transaction of `createOrder`. -/
  | createOrder (id : OrderId) (customerId : String) (lines : List OrderLine) (amountCents : Int)
    (businessId : Option String) (now : Nat)
  /-- The transaction of a `transition`, whose event was dated before it began. -/
  | transition (id : OrderId) (type : EventType) (detail : EventDetail) (date : Nat)
  /-- The first query of a read. -/
  | get (id : OrderId) (scope : Scope)
  /-- The first query of `all`. -/
  | all (ro : RowOrder) (scope : Scope)
  /-- The first query of `nonTerminal`. -/
  | nonTerminal (ro : RowOrder)
  /-- A later query of a read. -/
  | linesFor (reading : Nat) (ro : RowOrder)
  /-- The last query of a read. -/
  | eventsFor (reading : Nat)

namespace PgReads

variable {pg : Postgres}

/-- Empty tables, and no reads. -/
def empty : PgReads pg := ⟨.empty, []⟩

/-- An action, if it succeeds. -/
def step (s : PgReads pg) : PgAction → Option (PgReads pg)
  | .createOrder id customerId lines amountCents businessId now =>
    (s.tables.create (newOrder id customerId lines amountCents businessId now)).map fun tables =>
      { s with tables }
  | .transition id type detail date =>
    (s.tables.updateStatus id type.status ⟨type, date, detail⟩).map fun tables => { s with tables }
  | .get id scope =>
    (s.tables.orderFor id scope).map fun row => { s with readings := s.readings ++ [.get id row] }
  | .all ro scope =>
    (s.tables.ordersIn ro scope).map fun rows =>
      { s with readings := s.readings ++ [.hydrateAll rows] }
  | .nonTerminal ro =>
    some { s with readings := s.readings ++ [.hydrateAll (s.tables.openOrders ro)] }
  | .linesFor reading ro => do
    let r ← s.readings[reading]?
    let lines ← s.tables.linesFor ro r.orderIds
    if r.lines.isNone then
      return { s with readings := s.readings.set reading { r with lines := some lines } }
    else none
  | .eventsFor reading => do
    let r ← s.readings[reading]?
    let history ← s.tables.eventsFor r.orderIds
    if r.history.isNone then
      return { s with readings := s.readings.set reading { r with history := some history } }
    else none

/-- A run of actions, all of which succeed. -/
def run (s : PgReads pg) (actions : List PgAction) : Option (PgReads pg) := actions.foldlM step s

/-- A transition that changes the status of its order is not dated before an earlier one of the order, and
no read is between its query for the order and its query for the history. A `get` is called with an id as
the store writes it. -/
def Orderly (s : PgReads pg) : PgAction → Prop
  | .transition id type _ date =>
    (∀ r ∈ s.tables.orders, pg.uuid id = some r.id → r.status = type.status) ∨
      (∀ e ∈ s.tables.order_events, pg.uuid id = some e.order_id → e.at ≤ date) ∧
        ∀ reading ∈ s.readings, reading.history.isNone →
          ∀ found ∈ reading.found, pg.uuid id ≠ some found.1.id
  | .get id _ => pg.uuid id = none ∨ pg.uuid id = some id
  | _ => True

instance (s : PgReads pg) (a : PgAction) : Decidable (s.Orderly a) :=
  match a with
  | .transition id type _ date =>
    inferInstanceAs (Decidable
      ((∀ r ∈ s.tables.orders, pg.uuid id = some r.id → r.status = type.status) ∨
        (∀ e ∈ s.tables.order_events, pg.uuid id = some e.order_id → e.at ≤ date) ∧
          ∀ reading ∈ s.readings, reading.history.isNone →
            ∀ found ∈ reading.found, pg.uuid id ≠ some found.1.id))
  | .get id _ => inferInstanceAs (Decidable (pg.uuid id = none ∨ pg.uuid id = some id))
  | .createOrder .. | .all .. | .nonTerminal .. | .linesFor .. | .eventsFor .. => isTrue trivial

/-- Every step of a run is orderly. -/
def OrderlyRun : List PgAction → PgReads pg → Prop
  | [], _ => True
  | a :: actions, s => s.Orderly a ∧ ∀ s' ∈ s.step a, OrderlyRun actions s'

instance decidableOrderlyRun : ∀ actions (s : PgReads pg), Decidable (OrderlyRun actions s)
  | [], _ => isTrue trivial
  | a :: actions, s =>
    have : DecidablePred fun s' : PgReads pg => OrderlyRun actions s' := decidableOrderlyRun actions
    inferInstanceAs (Decidable (s.Orderly a ∧ ∀ s' ∈ s.step a, OrderlyRun actions s'))

end PgReads

/-- What `InMemoryOrderStore` does of these. -/
def OrderStore.step (store : OrderStore) : PgAction → OrderStore
  | .createOrder id customerId lines amountCents businessId now =>
    store.create (newOrder id customerId lines amountCents businessId now)
  | .transition id type detail date =>
    (store.updateStatus id type.status ⟨type, date, detail⟩).getD store
  | _ => store

/-- The status of an order is the one that was written with the last entry of its history. -/
def Order.Consistent (order : Order) : Prop := order.status = lastStatus order.types

instance (order : Order) : Decidable order.Consistent :=
  inferInstanceAs (Decidable (order.status = lastStatus order.types))

end SupplyChain
