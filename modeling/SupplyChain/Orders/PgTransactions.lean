import SupplyChain.Collections.Locks
import SupplyChain.Orders.OrderStores

/-!
# The transactions of `PgOrderStore`

`create` and `updateStatus` statement by statement, over any number of clients of the pool at once. What a
transaction has written is nobody else's until its `COMMIT`. A statement waits while another transaction has
the row that it updates, or has inserted the key that it inserts; it fails where Postgres rejects it.
-/

namespace SupplyChain

open Collections

/-- The row that `INSERT INTO orders` inserts. -/
def Order.insertedRow (pg : Postgres) (order : Order) : Option OrderRow := do
  let id ← pg.uuid order.id
  let business_id ← pg.uuidOrNull order.businessId
  return ⟨id, order.customerId, business_id, order.amountCents, order.status, order.createdAt⟩

/-- An `updateStatus` whose event has got an id. -/
structure StatusUpdate where
  /-- The id, as the caller writes it. -/
  id : OrderId
  /-- The new status. -/
  status : OrderStatus
  /-- The event to be recorded. -/
  event : OrderEvent
  /-- The id that the sequence has given it. -/
  eventId : Nat

/-- The row of the event. -/
def StatusUpdate.row (order_id : OrderId) (update : StatusUpdate) : OrderEventRow :=
  ⟨update.eventId, order_id, update.event.type, update.event.detail, update.event.at⟩

/-- A transaction between two of its statements: what it has written, and what is left to do. -/
inductive Transaction where
  /-- Nothing is written yet. -/
  | begun (call : StoreOp)
  /-- The order and some of its lines are inserted, the rest is to come. -/
  | inserting (order : Order) (row : OrderRow) (lines : List OrderLineRow) (rest : List OrderLine)
  /-- The status is updated, the event is to come. -/
  | updated (order_id : OrderId) (id : OrderId) (status : OrderStatus) (event : OrderEvent)
  /-- Both are written; the `COMMIT` is to come. -/
  | recorded (order_id : OrderId) (update : StatusUpdate)

/-- The order whose key or whose row it has. -/
def Transaction.locked : Transaction → Option OrderId
  | .begun _ => none
  | .inserting _ row _ _ => some row.id
  | .updated order_id _ _ _ => some order_id
  | .recorded order_id _ => some order_id

/-- A call that has returned without an error. -/
inductive Success where
  /-- `create` has returned. -/
  | create (order : Order)
  /-- `updateStatus` has returned. -/
  | updateStatus (update : StatusUpdate)

/-- The order that was created, if it is the one with this id. -/
def Success.created (pg : Postgres) (id : OrderId) : Success → Option Order
  | .create order => if pg.uuid order.id = some id then some order else none
  | .updateStatus _ => none

/-- The update, if it is one of the order with this id. -/
def Success.update (pg : Postgres) (id : OrderId) : Success → Option StatusUpdate
  | .create _ => none
  | .updateStatus update => if pg.uuid update.id = some id then some update else none

/-- The committed rows of the three tables, the sequence of `order_events.id`, and what the clients are at.
`log` lists the calls that have succeeded. -/
structure PgServer where
  /-- The rows of `orders`. -/
  orders : List OrderRow
  /-- The rows of `order_lines`. -/
  order_lines : List OrderLineRow
  /-- The rows of `order_events`, in the order of the commits. -/
  order_events : List OrderEventRow
  /-- The next value of `order_events.id`. -/
  sequence : Nat
  /-- The transaction of each client that is in one. -/
  clients : Nat → Option Transaction
  /-- Who has the key or the row of each order. -/
  locks : Locks OrderId Nat
  /-- The calls that have succeeded, in the order of their commits. -/
  log : List Success

/-- What can happen next. -/
inductive PgStep where
  /-- `pool.connect()` and `BEGIN`. -/
  | call (client : Nat) (call : StoreOp)
  /-- The next statement, `COMMIT` apart. If it draws an id, the sequence has passed over `skipped` ids. -/
  | statement (client skipped : Nat)
  /-- `COMMIT` -/
  | commit (client : Nat)
  /-- A statement, or `COMMIT`, fails, for whatever reason. -/
  | fail (client : Nat)

namespace PgServer

variable (pg : Postgres) (s : PgServer)

/-- Tables without rows, and clients without transactions. -/
def empty : PgServer where
  orders := []
  order_lines := []
  order_events := []
  sequence := 1
  clients _ := none
  locks := .empty
  log := []

/-- `client` goes on in its transaction. -/
def goOn (client : Nat) (t : Transaction) : PgServer :=
  { s with clients := Function.update s.clients client (some t) }

/-- `client` gets the key or the row of an order. -/
def lock (client : Nat) (order_id : OrderId) : PgServer :=
  { s with locks := s.locks.acquire order_id client }

/-- The end of the transaction of `client`. -/
def release (client : Nat) : PgServer :=
  { s with clients := Function.update s.clients client none, locks := s.locks.release client }

/-- The next statement of a transaction; `none` is that it waits or fails. -/
def statement (client skipped : Nat) : Transaction → Option PgServer
  | .begun (.create order) => do
    let row ← order.insertedRow pg
    if row.fits ∧ row.id ∉ s.orders.map OrderRow.id ∧ s.locks row.id = none then
      return (s.lock client row.id).goOn client (.inserting order row [] order.lines)
    else none
  | .inserting order row lines (line :: rest) =>
    -- the order that the line refers to is this transaction's own
    let lineRow := line.row row.id
    if lineRow.fits pg ∧ ∀ l ∈ s.order_lines ++ lines, l.key ≠ lineRow.key then
      return s.goOn client (.inserting order row (lines ++ [lineRow]) rest)
    else none
  | .begun (.updateStatus id status event) => do
    let order_id ← pg.uuid id
    if order_id ∈ s.orders.map OrderRow.id ∧ s.locks order_id = none then
      return (s.lock client order_id).goOn client (.updated order_id id status event)
    else none -- Unknown order, or another transaction has its row
  | .updated order_id id status event =>
    if event.detail.storable then
      let eventId := s.sequence + skipped
      return { s with sequence := eventId + 1 }.goOn client (.recorded order_id ⟨id, status, event, eventId⟩)
    else none
  | .inserting _ _ _ [] => none
  | .recorded _ _ => none

/-- What a transaction has written is there for all, at once. -/
def commit (client : Nat) : Transaction → Option PgServer
  | .inserting order row lines [] =>
    return { s.release client with
      orders := s.orders ++ [row]
      order_lines := s.order_lines ++ lines
      log := s.log ++ [.create order] }
  | .recorded order_id update =>
    -- nobody else has written the row since it was locked
    return { s.release client with
      orders := s.orders.map (OrderRow.update order_id update.status)
      order_events := s.order_events ++ [update.row order_id]
      log := s.log ++ [.updateStatus update] }
  | _ => none

/-- `none` is a step that the client cannot take now. -/
def step : PgStep → Option PgServer
  | .call client call =>
    match s.clients client with
    | none => return s.goOn client (.begun call)
    | some _ => none
  | .statement client skipped => (s.clients client).bind (s.statement pg client skipped)
  | .commit client => (s.clients client).bind (s.commit client)
  | .fail client => (s.clients client).map fun _ => s.release client

/-- A run of steps; a sequence that cannot happen has none. -/
def run (steps : List PgStep) : Option PgServer := steps.foldlM (step pg) s

/-- The steps of a call when no other client does anything. -/
def alone (client : Nat) : StoreOp → List PgStep
  | .create order =>
    [.call client (.create order), .statement client 0] ++ order.lines.map (fun _ => .statement client 0) ++
      [.commit client]
  | .updateStatus id status event =>
    [.call client (.updateStatus id status event), .statement client 0, .statement client 0, .commit client]

/-- No transaction is in flight, and these are the tables. -/
structure Rests {pg : Postgres} (t : Tables pg) : Prop where
  /-- The rows of `orders` are those. -/
  orders : s.orders = t.orders
  /-- So are those of `order_lines`. -/
  order_lines : s.order_lines = t.order_lines
  /-- So are those of `order_events`. -/
  order_events : s.order_events = t.order_events
  /-- So is the sequence. -/
  sequence : s.sequence = t.sequence
  /-- Nobody is in a transaction. -/
  idle : s.clients = fun _ => none
  /-- Nobody has a lock. -/
  free : s.locks = .empty

/-! ## An order in the tables, and in the calls -/

/-- The committed lines of an order. -/
def linesOf (id : OrderId) : List OrderLineRow := s.order_lines.filter fun l => l.order_id = id

/-- The committed events of an order. -/
def eventsOf (id : OrderId) : List OrderEventRow := s.order_events.filter fun e => e.order_id = id

/-- The orders with which `create` succeeded for `id`. -/
def created (id : OrderId) : List Order := s.log.filterMap (Success.created pg id)

/-- The calls of `updateStatus` that succeeded for `id`. -/
def updates (id : OrderId) : List StatusUpdate := s.log.filterMap (Success.update pg id)

/-- A row of `orders` with what the other tables hold for it: the lines are those of the `create` that
succeeded, each successful `updateStatus` has its event, and the status is that of the last event. -/
def Agrees (row : OrderRow) : Prop :=
  ∃ order, s.created pg row.id = [order] ∧ s.linesOf row.id = order.lines.map (OrderLine.row row.id) ∧
    (s.eventsOf row.id).length = (s.updates pg row.id).length ∧
    (s.eventsOf row.id = [] → row.status = order.status) ∧
    ∀ e ∈ s.eventsOf row.id, (∀ e' ∈ s.eventsOf row.id, e'.id ≤ e.id) →
      ∃ update, (s.updates pg row.id).filter (fun u => u.eventId = e.id) = [update] ∧
        e = update.row row.id ∧ row.status = update.status

end PgServer

end SupplyChain
