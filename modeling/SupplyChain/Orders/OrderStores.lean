import SupplyChain.Orders.PgReads

/-!
# The two order stores side by side

Orders and operations that both stores are given, and what each of them then shows.
-/

namespace SupplyChain

/-- What `createOrderSchema` accepts. -/
structure CreateOrder where
  /-- `customerId` -/
  customerId : String
  /-- `amountCents` -/
  amountCents : Int
  /-- `lines` -/
  lines : List OrderLine
  /-- `z.string().min(1)` -/
  customerId_min : customerId ≠ ""
  /-- `z.number().int().positive()` -/
  amountCents_positive : 0 < amountCents
  /-- `z.array(..).min(1)` -/
  lines_min : lines ≠ []
  /-- `min(1)` of `sku` and `warehouseId`, and a positive `qty`. -/
  line_valid : ∀ line ∈ lines, line.sku ≠ "" ∧ 0 < line.qty ∧ line.warehouseId ≠ ""

/-- The order that `createOrder` makes of a payload. -/
def CreateOrder.order (p : CreateOrder) (id : OrderId) (businessId : Option String) (now : Nat) : Order :=
  newOrder id p.customerId p.lines p.amountCents businessId now

/-- Both stores accept an order, and then return the same for it, the lines in the same order. -/
def StoresAgree {pg : Postgres} (t : Tables pg) (store : OrderStore) (order : Order) : Prop :=
  ∃ t', t.create order = some t' ∧ ∀ ro : RowOrder, ∃ o o',
    t'.get ro order.id none = some (some o) ∧ (store.create order).get order.id = some o' ∧
      o.customerId = o'.customerId ∧ o.businessId = o'.businessId ∧
      o.amountCents = o'.amountCents ∧ o.status = o'.status ∧ o.lines = o'.lines

/-! ## Scoped reads in memory -/

namespace OrderStore

/-- `order.businessId` is `businessId`, unless that is `undefined`. -/
def visible (scope : Scope) (order : Order) : Bool :=
  match scope with
  | none => true
  | some businessId => order.businessId = businessId

/-- `InMemoryOrderStore.get`, with its scope. -/
def getIn (store : OrderStore) (id : OrderId) (scope : Scope) : Option Order :=
  (store.get id).filter (visible scope)

/-- `InMemoryOrderStore.all`. -/
def allIn (store : OrderStore) (scope : Scope) : List Order :=
  store.orders.values.filter (visible scope)

end OrderStore

/-! ## Operations -/

/-- A call that writes to a store. -/
inductive StoreOp where
  /-- `create` -/
  | create (order : Order)
  /-- `updateStatus` -/
  | updateStatus (id : OrderId) (status : OrderStatus) (event : OrderEvent)

/-- An operation that throws changes nothing. -/
def OrderStore.perform (store : OrderStore) : StoreOp → OrderStore
  | .create order => store.create order
  | .updateStatus id status event => (store.updateStatus id status event).getD store

/-- A call that Postgres rejects leaves the tables as they were. -/
def Tables.perform {pg : Postgres} (t : Tables pg) : StoreOp → Tables pg
  | .create order => (t.create order).getD t
  | .updateStatus id status event => (t.updateStatus id status event).getD t

namespace StoreOp

/-- The stores after some operations. -/
def memory (ops : List StoreOp) : OrderStore := ops.foldl OrderStore.perform (.empty .inMemory)

/-- The tables after some calls, from the start. -/
def tables (pg : Postgres) (ops : List StoreOp) : Tables pg := ops.foldl Tables.perform .empty

/-- The orders that are created, in turn. -/
def created : List StoreOp → List Order
  | [] => []
  | create order :: ops => order :: created ops
  | updateStatus .. :: ops => created ops

/-- No order has the id of another. -/
def Fresh (ops : List StoreOp) : Prop := ((created ops).map Order.id).Nodup

/-- Ids are written as Postgres writes them. A new order has no history. -/
structure Canonical (pg : Postgres) (ops : List StoreOp) : Prop where
  /-- The ids of orders are UUIDs as Postgres writes them. -/
  uuid : ∀ order ∈ created ops, pg.uuid order.id = some order.id
  /-- So are those of businesses. -/
  business : ∀ order ∈ created ops, pg.uuidOrNull order.businessId = some order.businessId
  /-- A new order has no history. -/
  history : ∀ order ∈ created ops, order.history = []
  /-- The ids of updates are UUIDs as Postgres writes them. -/
  update : ∀ id status event, updateStatus id status event ∈ ops →
    pg.uuid id = none ∨ pg.uuid id = some id

/-- The business that the order `id` is created for. -/
def owner (ops : List StoreOp) (id : OrderId) : Option (Option String) :=
  ((created ops).find? fun order => order.id = id).map Order.businessId

/-- Whether an operation concerns an order that `businessId` owns, when `owner` tells who owns each. -/
def concerns (owner : OrderId → Option (Option String)) (businessId : Option String) : StoreOp → Bool
  | create order => order.businessId = businessId
  | updateStatus id _ _ => owner id = some businessId

/-- The operations on the orders of one business. -/
def ownedBy (ops : List StoreOp) (businessId : Option String) : List StoreOp :=
  ops.filter (concerns (owner ops) businessId)

/-- What the scope of a business shows in memory depends on the operations on its own orders only. -/
def MemoryIsolated (ops : List StoreOp) : Prop :=
  ∀ b, (∀ id, (memory ops).getIn id (some b) = (memory (ownedBy ops b)).getIn id (some b)) ∧
    (memory ops).allIn (some b) = (memory (ownedBy ops b)).allIn (some b)

/-- And in Postgres. -/
def TablesIsolated (pg : Postgres) (ops : List StoreOp) : Prop :=
  ∀ b, pg.uuidOrNull b = some b → ∀ ro,
    (∀ id, (tables pg ops).get ro id (some b) = (tables pg (ownedBy ops b)).get ro id (some b)) ∧
      (tables pg ops).all ro (some b) = (tables pg (ownedBy ops b)).all ro (some b)

/-- Each order in memory is shown in one scope. -/
def MemoryInOneScope (ops : List StoreOp) : Prop :=
  ∀ id order, (memory ops).get id = some order →
    ∃ b, ∀ b', (memory ops).getIn id (some b') = some order ↔ b' = b

/-- And in Postgres. -/
def TablesInOneScope (pg : Postgres) (ops : List StoreOp) : Prop :=
  ∀ ro id order, (tables pg ops).get ro id none = some (some order) →
    ∃ b, pg.uuidOrNull b = some b ∧ ∀ b', pg.uuidOrNull b' = some b' →
      ((tables pg ops).get ro id (some b') = some (some order) ↔ b' = b)

/-- The same order, with its lines and its history in some order. -/
def Same (o o' : Order) : Prop :=
  { o with lines := [], history := [] } = { o' with lines := [], history := [] } ∧
    o.lines.Perm o'.lines ∧ o.history.Perm o'.history

/-- In every scope both stores show the same orders. -/
def ShownAlike (pg : Postgres) (ops : List StoreOp) : Prop :=
  ∀ b, pg.uuidOrNull b = some b → ∀ ro,
    (∀ id, pg.uuid id = some id → ∃ o, (tables pg ops).get ro id (some b) = some o ∧
      Option.Rel Same ((memory ops).getIn id (some b)) o) ∧
    ∃ orders orders', (tables pg ops).all ro (some b) = some orders ∧
      ((memory ops).allIn (some b)).Perm orders' ∧ List.Forall₂ Same orders' orders

/-- The order meets the constraints of the tables: no string holds a NUL, every number is an `INTEGER`, and
no two lines are for the same item in the same warehouse. -/
def MeetsConstraints (pg : Postgres) (order : Order) : Prop :=
  storable order.customerId = true ∧ positiveInteger order.amountCents = true ∧
    (∀ line ∈ order.lines, (line.row order.id).fits pg = true) ∧
    (order.lines.map fun line => (line.sku, line.warehouseId)).Nodup

/-- An operation that the tables accept: an order that meets their constraints, or an event whose strings
hold no NUL, if there is an order for it. -/
def Accepted (pg : Postgres) (store : OrderStore) : StoreOp → Prop
  | create order => MeetsConstraints pg order
  | updateStatus id _ event => (store.get id).isSome = true → event.detail.storable = true

end StoreOp

end SupplyChain
