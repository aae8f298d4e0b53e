import SupplyChain.Orders.PgTransactions

/-!
# The serial order of the transactions of `PgOrderStore`

The calls that have succeeded, executed one after the other in the order of their commits, and what it means
that the committed tables read as if that had happened.
-/

namespace SupplyChain

namespace Tables

variable {pg : Postgres}

/-- `nonTerminal`, with nothing between its queries. -/
def nonTerminal (t : Tables pg) (ro : RowOrder) : Option (List Order) :=
  t.fetch ro (.hydrateAll (t.openOrders ro))

/-- The two tables read the same: by every id, in every scope, and in the sweep. -/
structure ReadAlike (t t' : Tables pg) : Prop where
  /-- `get`, by every id and in every scope. -/
  get : ∀ ro id scope, t.get ro id scope = t'.get ro id scope
  /-- `all`, in every scope. -/
  all : ∀ ro scope, t.all ro scope = t'.all ro scope
  /-- `nonTerminal` -/
  nonTerminal : ∀ ro, t.nonTerminal ro = t'.nonTerminal ro

/-- A call that has succeeded, as one step. -/
def execute (t : Tables pg) : Success → Option (Tables pg)
  | .create order => t.create order
  | .updateStatus update => t.updateStatus update.id update.status update.event

/-- Calls that all succeed, one after the other. -/
def replay (t : Tables pg) (calls : List Success) : Option (Tables pg) := calls.foldlM execute t

end Tables

/-- The call that succeeded. -/
def Success.op : Success → StoreOp
  | .create order => .create order
  | .updateStatus update => .updateStatus update.id update.status update.event

/-- Ids are written as Postgres writes them, and a new order has no history. -/
def Success.Canonical (pg : Postgres) : Success → Prop
  | .create order =>
    pg.uuid order.id = some order.id ∧ pg.uuidOrNull order.businessId = some order.businessId ∧
      order.history = []
  | .updateStatus update => pg.uuid update.id = some update.id

instance (pg : Postgres) (call : Success) : Decidable (call.Canonical pg) :=
  match call with
  | .create order => inferInstanceAs (Decidable (pg.uuid order.id = some order.id ∧
      pg.uuidOrNull order.businessId = some order.businessId ∧ order.history = []))
  | .updateStatus update => inferInstanceAs (Decidable (pg.uuid update.id = some update.id))

/-- In every scope the tables show the orders that the store in memory shows. -/
def Tables.ShowsAs {pg : Postgres} (t : Tables pg) (store : OrderStore) : Prop :=
  ∀ b, pg.uuidOrNull b = some b → ∀ ro,
    (∀ id, pg.uuid id = some id → ∃ o, t.get ro id (some b) = some o ∧
      Option.Rel StoreOp.Same (store.getIn id (some b)) o) ∧
    ∃ orders orders', t.all ro (some b) = some orders ∧
      (store.allIn (some b)).Perm orders' ∧ List.Forall₂ StoreOp.Same orders' orders

namespace PgServer

/-- The committed tables, whose events are listed by their ids. -/
structure Committed {pg : Postgres} (s : PgServer) (t : Tables pg) : Prop where
  /-- The rows of `orders`. -/
  orders : t.orders = s.orders
  /-- The rows of `order_lines`. -/
  order_lines : t.order_lines = s.order_lines
  /-- The rows of `order_events`, which the server keeps in the order of the commits. -/
  order_events : t.order_events.Perm s.order_events
  /-- The sequence. -/
  sequence : t.sequence = s.sequence

/-- The transactions of a run might as well have been executed one after the other, in the order of their
commits. -/
def Serializable (pg : Postgres) (s : PgServer) : Prop :=
  ∃ t serial : Tables pg, s.Committed t ∧ Tables.empty.replay s.log = some serial ∧ t.ReadAlike serial

end PgServer

end SupplyChain
