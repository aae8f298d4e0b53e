import SupplyChain.Orders.OrderStore
import Mathlib.Data.List.Sort

/-!
# `PgOrderStore`

The tables of `schema.sql` with their constraints, and the statements of `pgOrderStore.ts` over them. A
transaction that fails throws, and leaves the tables as they were. `updated_at` is left out.
-/

namespace SupplyChain

open Collections

/-- What Postgres makes of the values it is given. -/
structure Postgres where
  /-- The text that a UUID is written as, for any text that denotes one. -/
  uuid : String → Option String
  /-- What Postgres writes for a UUID, it reads as the same. -/
  uuid_uuid : ∀ {s u}, uuid s = some u → uuid u = some u
  /-- Whether a key of `order_lines` fits on a page of its index. -/
  indexRowFits : OrderId → Sku → WarehouseId → Bool

/-- The characters of a UUID as it is written, with a hyphen where `i` is 8, 13, 18 or 23. -/
def uuidChars : Nat → List Char → Bool
  | i, [] => i == 36
  | i, c :: rest =>
    (if [8, 13, 18, 23].contains i then c == '-' else "0123456789abcdef".toList.contains c) &&
      uuidChars (i + 1) rest

theorem map_toLower_of_uuidChars {i : Nat} {chars : List Char} (h : uuidChars i chars = true) :
    chars.map Char.toLower = chars := by
  induction chars generalizing i with
  | nil => rfl
  | cons c chars ih =>
    rw [uuidChars, Bool.and_eq_true] at h
    rw [List.map_cons, ih h.2]
    have hc := h.1
    split at hc
    · rw [eq_of_beq hc]
      rfl
    · have hlower : "0123456789abcdef".toList.all (fun c => c.toLower == c) = true := by decide +kernel
      rw [eq_of_beq (List.all_eq_true.mp hlower c (List.contains_iff_mem.mp hc))]

/-- A Postgres that knows a UUID by its 36 characters, in either case. -/
def Postgres.plain : Postgres where
  uuid s :=
    let chars := s.toList.map Char.toLower
    if uuidChars 0 chars then some (String.ofList chars) else none
  uuid_uuid := by
    intro s u h
    dsimp only at h ⊢
    split at h
    · rename_i hchars
      rw [← Option.some.inj h, String.toList_ofList, map_toLower_of_uuidChars hchars, if_pos hchars]
    · cases h
  indexRowFits _ _ _ := true

/-- A text that does not denote a UUID is an error; `null` is NULL. -/
def Postgres.uuidOrNull (pg : Postgres) : Option String → Option (Option String)
  | none => some none
  | some s => (pg.uuid s).map some

/-- A value of `TEXT`, or a string within a value of `JSONB`, holds no NUL. -/
def storable (s : String) : Bool := !s.toList.contains '\x00'

/-- A positive `INTEGER`. -/
def positiveInteger (n : Int) : Bool := 0 < n && n ≤ 2147483647

/-- A row of `orders`. -/
structure OrderRow where
  id : OrderId
  customer_id : String
  business_id : Option String
  amount_cents : Int
  status : OrderStatus
  created_at : Nat
  deriving DecidableEq

/-- A row after the status of the order `id` was set. -/
def OrderRow.update (id : OrderId) (status : OrderStatus) (r : OrderRow) : OrderRow :=
  if r.id = id then { r with status } else r

theorem OrderRow.update_id (id : OrderId) (status : OrderStatus) (r : OrderRow) :
    (update id status r).id = r.id := by
  unfold update
  split <;> rfl

/-- A row of `order_lines`. -/
structure OrderLineRow where
  order_id : OrderId
  sku : Sku
  warehouse_id : WarehouseId
  qty : Int
  deriving DecidableEq

/-- A row of `order_events`. -/
structure OrderEventRow where
  id : Nat
  order_id : OrderId
  type : EventType
  detail : EventDetail
  «at» : Nat
  deriving DecidableEq

/-- The constraints of a row of `orders` on its own. -/
def OrderRow.fits (r : OrderRow) : Bool := storable r.customer_id && positiveInteger r.amount_cents

/-- The row can be stored, and its key fits in the index. -/
def OrderLineRow.fits (pg : Postgres) (r : OrderLineRow) : Bool :=
  storable r.sku && storable r.warehouse_id && positiveInteger r.qty &&
    pg.indexRowFits r.order_id r.sku r.warehouse_id

/-- The primary key of `order_lines`. -/
def OrderLineRow.key (r : OrderLineRow) : OrderId × Sku × WarehouseId :=
  (r.order_id, r.sku, r.warehouse_id)

/-- The row of a line of an order. -/
def OrderLine.row (order_id : OrderId) (line : OrderLine) : OrderLineRow :=
  ⟨order_id, line.sku, line.warehouseId, line.qty⟩

/-- `ORDER BY at ASC, id ASC`. -/
def OrderEventRow.Before (e e' : OrderEventRow) : Prop := e.at < e'.at ∨ e.at = e'.at ∧ e.id ≤ e'.id

instance : DecidableRel OrderEventRow.Before := fun e e' =>
  inferInstanceAs (Decidable (e.at < e'.at ∨ e.at = e'.at ∧ e.id ≤ e'.id))

/-- The three tables. The rows of `order_events` are listed by their ids, which `sequence` is the next
of. -/
structure Tables (pg : Postgres) where
  /-- The rows of `orders`. -/
  orders : List OrderRow
  /-- The rows of `order_lines`. -/
  order_lines : List OrderLineRow
  /-- The rows of `order_events`, in the order of their ids. -/
  order_events : List OrderEventRow
  /-- The next value of `order_events.id`. -/
  sequence : Nat
  /-- Ids are UUIDs as Postgres writes them. -/
  orders_uuid : ∀ r ∈ orders, pg.uuid r.id = some r.id
  /-- `PRIMARY KEY` -/
  orders_key : (orders.map OrderRow.id).Nodup
  /-- `PRIMARY KEY (order_id, sku, warehouse_id)` -/
  order_lines_key : (order_lines.map OrderLineRow.key).Nodup
  /-- `REFERENCES orders` -/
  order_lines_order : ∀ l ∈ order_lines, l.order_id ∈ orders.map OrderRow.id
  /-- `REFERENCES orders` -/
  order_events_order : ∀ e ∈ order_events, e.order_id ∈ orders.map OrderRow.id
  /-- `PRIMARY KEY` -/
  order_events_key : order_events.Pairwise fun e e' => e.id < e'.id
  /-- The sequence is past every id. -/
  order_events_sequence : ∀ e ∈ order_events, e.id < sequence

/-- The order in which rows come back that no `ORDER BY` arranges. -/
structure RowOrder where
  /-- The order in which it gives rows of `orders`. -/
  orders : List OrderRow → List OrderRow
  /-- The order in which it gives rows of `order_lines`. -/
  lines : List OrderLineRow → List OrderLineRow
  /-- No row is lost or doubled. -/
  orders_perm : ∀ rows, (orders rows).Perm rows
  /-- No row is lost or doubled. -/
  lines_perm : ∀ rows, (lines rows).Perm rows

/-- Rows come back as they were inserted. -/
def RowOrder.inserted : RowOrder := ⟨id, id, List.Perm.refl, List.Perm.refl⟩

/-- The `businessId` of a read: `undefined`, `null` or an id. -/
abbrev Scope := Option (Option String)

/-- The strings in the detail of an event. -/
def EventDetail.texts (d : EventDetail) : List String :=
  (d.reservations.getD []).flatMap (fun r => [r.warehouseId, r.sku, r.reservationId]) ++
    (d.lines.getD []).flatMap (fun l => [l.sku, l.warehouseId]) ++
    [d.paymentId, d.shipmentId, d.reason, d.sku, d.warehouseId, d.customerId,
      d.businessId.getD none].reduceOption

/-- All its texts can be stored. -/
def EventDetail.storable (d : EventDetail) : Bool := d.texts.all SupplyChain.storable

namespace Tables

variable {pg : Postgres}

/-- The tables of `schema.sql`, without rows. -/
def empty : Tables pg where
  orders := []
  order_lines := []
  order_events := []
  sequence := 1
  orders_uuid := by simp
  orders_key := by simp
  order_lines_key := by simp
  order_lines_order := by simp
  order_events_order := by simp
  order_events_key := by simp
  order_events_sequence := by simp

/-- `INSERT INTO orders`. -/
def insertOrder (t : Tables pg) (order : Order) : Option (Tables pg) :=
  match hid : pg.uuid order.id, pg.uuidOrNull order.businessId with
  | some id, some business_id =>
    let row : OrderRow :=
      ⟨id, order.customerId, business_id, order.amountCents, order.status, order.createdAt⟩
    if h : row.fits ∧ row.id ∉ t.orders.map OrderRow.id then
      some
        { t with
          orders := t.orders ++ [row]
          orders_uuid := by
            intro r hr
            rcases List.mem_append.mp hr with hold | hnew
            · exact t.orders_uuid r hold
            · rw [List.mem_singleton.mp hnew]
              exact pg.uuid_uuid hid
          orders_key := by simpa using t.orders_key.concat h.2
          order_lines_order := fun l hl => by
            rw [List.map_append]
            exact List.mem_append_left _ (t.order_lines_order l hl)
          order_events_order := fun e he => by
            rw [List.map_append]
            exact List.mem_append_left _ (t.order_events_order e he) }
    else none
  | _, _ => none

/-- `INSERT INTO order_lines`. -/
def insertLine (orderId : OrderId) (t : Tables pg) (line : OrderLine) : Option (Tables pg) :=
  match pg.uuid orderId with
  | none => none
  | some order_id =>
    let row := line.row order_id
    if h : row.fits pg ∧ row.key ∉ t.order_lines.map OrderLineRow.key ∧
        row.order_id ∈ t.orders.map OrderRow.id then
      some
        { t with
          order_lines := t.order_lines ++ [row]
          order_lines_key := by simpa using t.order_lines_key.concat h.2.1
          order_lines_order := by
            intro l hl
            rcases List.mem_append.mp hl with hold | hnew
            · exact t.order_lines_order l hold
            · rw [List.mem_singleton.mp hnew]
              exact h.2.2 }
    else none

/-- `INSERT INTO order_events`. -/
def insertEvent (t : Tables pg) (order_id : OrderId) (event : OrderEvent) : Option (Tables pg) :=
  if h : event.detail.storable ∧ order_id ∈ t.orders.map OrderRow.id then
    some
      { t with
        order_events := t.order_events ++ [⟨t.sequence, order_id, event.type, event.detail, event.at⟩]
        sequence := t.sequence + 1
        order_events_order := by
          intro e he
          rcases List.mem_append.mp he with hold | hnew
          · exact t.order_events_order e hold
          · rw [List.mem_singleton.mp hnew]
            exact h.2
        order_events_key := by
          refine List.pairwise_append.mpr ⟨t.order_events_key, List.pairwise_singleton _ _, ?_⟩
          intro e he e' he'
          rw [List.mem_singleton.mp he']
          exact t.order_events_sequence e he
        order_events_sequence := by
          intro e he
          rcases List.mem_append.mp he with hold | hnew
          · exact Nat.lt_succ_of_lt (t.order_events_sequence e hold)
          · rw [List.mem_singleton.mp hnew]
            exact Nat.lt_succ_self _ }
  else none

/-- `UPDATE orders`. -/
def updateOrders (t : Tables pg) (id : OrderId) (status : OrderStatus) : Tables pg :=
  have hids : (t.orders.map (OrderRow.update id status)).map OrderRow.id = t.orders.map OrderRow.id := by
    rw [List.map_map]
    exact List.map_congr_left fun r _ => OrderRow.update_id id status r
  { t with
    orders := t.orders.map (OrderRow.update id status)
    orders_uuid := by
      intro r hr
      obtain ⟨r', hr', rfl⟩ := List.mem_map.mp hr
      rw [OrderRow.update_id]
      exact t.orders_uuid r' hr'
    orders_key := by
      rw [hids]
      exact t.orders_key
    order_lines_order := by
      rw [hids]
      exact t.order_lines_order
    order_events_order := by
      rw [hids]
      exact t.order_events_order }

/-! ## Transactions -/

/-- `create`; `none` is that a statement is rejected and the transaction rolled back. -/
def create (t : Tables pg) (order : Order) : Option (Tables pg) :=
  (t.insertOrder order).bind fun t => order.lines.foldlM (insertLine order.id) t

/-- `updateStatus`; `none` is that it throws. -/
def updateStatus (t : Tables pg) (id : OrderId) (status : OrderStatus) (event : OrderEvent) :
    Option (Tables pg) :=
  (pg.uuid id).bind fun id =>
    if id ∈ t.orders.map OrderRow.id then (t.updateOrders id status).insertEvent id event
    else none -- Unknown order

/-! ## Queries -/

/-- `business_id IS NOT DISTINCT FROM businessId`, unless that is `undefined`. -/
def inScope (pg : Postgres) : Scope → Option (OrderRow → Bool)
  | none => some fun _ => true
  | some businessId => (pg.uuidOrNull businessId).map fun b r => r.business_id = b

/-- The row that `get` reads. -/
def orderFor (t : Tables pg) (id : OrderId) (scope : Scope) : Option (Option OrderRow) := do
  let id ← pg.uuid id
  let visible ← inScope pg scope
  return (t.orders.filter fun r => r.id = id && visible r).head?

/-- `ORDER BY created_at ASC`. -/
def byCreation (ro : RowOrder) (rows : List OrderRow) : List OrderRow :=
  (ro.orders rows).insertionSort fun r r' => r.created_at ≤ r'.created_at

/-- The rows that `all` reads. -/
def ordersIn (t : Tables pg) (ro : RowOrder) (scope : Scope) : Option (List OrderRow) :=
  (inScope pg scope).map fun visible => byCreation ro (t.orders.filter visible)

/-- The rows that `nonTerminal` reads. -/
def openOrders (t : Tables pg) (ro : RowOrder) : List OrderRow :=
  byCreation ro (t.orders.filter fun r => !isTerminalStatus r.status)

/-- `byOrder`, after a loop over rows that pushes an item for each. -/
def groupBy {ρ α : Type} (key : ρ → OrderId) (item : ρ → α) (rows : List ρ) :
    InsertionMap OrderId (List α) :=
  rows.foldl (fun byOrder row =>
    byOrder.set (key row) ((byOrder.get (key row)).getD [] ++ [item row])) .empty

/-- `linesFor` -/
def linesFor (t : Tables pg) (ro : RowOrder) (orderIds : List OrderId) :
    Option (InsertionMap OrderId (List OrderLine)) :=
  (orderIds.mapM pg.uuid).map fun ids =>
    groupBy OrderLineRow.order_id (fun r => ⟨r.sku, r.qty, r.warehouse_id⟩)
      (ro.lines (t.order_lines.filter fun r => r.order_id ∈ ids))

/-- `eventsFor` -/
def eventsFor (t : Tables pg) (orderIds : List OrderId) :
    Option (InsertionMap OrderId (List OrderEvent)) :=
  (orderIds.mapM pg.uuid).map fun ids =>
    groupBy OrderEventRow.order_id (fun r => ⟨r.type, r.at, r.detail⟩)
      ((t.order_events.filter fun r => r.order_id ∈ ids).insertionSort OrderEventRow.Before)

end Tables

/-- The order of a row, with what the other tables say of it. -/
def OrderRow.toOrder (row : OrderRow) (lines : List OrderLine) (history : List OrderEvent) : Order :=
  { id := row.id, customerId := row.customer_id, businessId := row.business_id, lines,
    amountCents := row.amount_cents, status := row.status, history, createdAt := row.created_at }

/-- A read between its queries: the rows of `orders` that it has found, each with the id under which it
looks for the lines and the history, and what it has fetched of these. -/
structure Reading where
  /-- The rows found, each with the id by which its lines and events are looked up. -/
  found : List (OrderRow × OrderId)
  /-- What `linesFor` has returned. -/
  lines : Option (InsertionMap OrderId (List OrderLine))
  /-- What `eventsFor` has returned. -/
  history : Option (InsertionMap OrderId (List OrderEvent))

namespace Reading

/-- A read that has found no row fetches nothing. -/
def start (found : List (OrderRow × OrderId)) : Reading :=
  if found.isEmpty then ⟨found, some .empty, some .empty⟩ else ⟨found, none, none⟩

/-- `get` looks under the id that it was called with. -/
def get (id : OrderId) (row : Option OrderRow) : Reading := start (row.toList.map fun r => (r, id))

/-- `hydrateAll`. -/
def hydrateAll (rows : List OrderRow) : Reading := start (rows.map fun r => (r, r.id))

/-- The ids that are looked up. -/
def orderIds (r : Reading) : List OrderId := r.found.map Prod.snd

/-- The orders that the read returns, when all is fetched. -/
def returned (r : Reading) : Option (List Order) := do
  let lines ← r.lines
  let history ← r.history
  return r.found.map fun (row, id) => row.toOrder ((lines.get id).getD []) ((history.get id).getD [])

end Reading

namespace Tables

variable {pg : Postgres}

/-- The rest of a read, with nothing in between. -/
def fetch (t : Tables pg) (ro : RowOrder) (r : Reading) : Option (List Order) :=
  match r.returned with
  | some orders => some orders
  | none => do
    let lines ← t.linesFor ro r.orderIds
    let history ← t.eventsFor r.orderIds
    { r with lines := some lines, history := some history }.returned

/-- `get`, with nothing between its queries. -/
def get (t : Tables pg) (ro : RowOrder) (id : OrderId) (scope : Scope) : Option (Option Order) := do
  let row ← t.orderFor id scope
  let orders ← t.fetch ro (.get id row)
  return orders.head?

/-- `all`, with nothing between its queries. -/
def all (t : Tables pg) (ro : RowOrder) (scope : Scope) : Option (List Order) := do
  let rows ← t.ordersIn ro scope
  t.fetch ro (.hydrateAll rows)

end Tables

end SupplyChain
