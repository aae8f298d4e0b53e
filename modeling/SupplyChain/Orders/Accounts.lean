import Mathlib.Algebra.BigOperators.Group.Finset.Basic
import SupplyChain.Orders.Progress

/-!
# Who holds what

The invariants that tie the shared state to what the executions have done. Each is about one participant
and about the part of every execution's progress that concerns it.
-/

namespace SupplyChain

open Async InventoryService

/-- The quantity of an item that is booked. -/
def demand (bs : List Booking) (item : String) : Int :=
  (bs.map fun b => if b.item = item then b.qty else 0).sum

/-- The quantity of an item that lines ask for. -/
def lineDemand (lines : List OrderLine) (item : String) : Int :=
  (lines.map fun l => if l.item = item then l.qty else 0).sum

/-- The part of a booking's quantity that is missing from the counter of an item: it is on hold, or
was consumed by a commit. -/
def Booking.tied (b : Booking) (redis : Redis) (committed : List ReservationId) (item : String) : Int :=
  if b.item = item ∧ ((held redis b.id).isSome ∨ b.id ∈ committed) then b.qty else 0

/-- What an execution's bookings keep from the counter of an item. -/
def Progress.tied (g : Progress) (redis : Redis) (item : String) : Int :=
  (g.taken.map fun b => b.tied redis g.committed item).sum

/-- The reservation ids that have not been drawn. -/
def Unused (uuids : UuidSource) (drawn : Nat) (id : ReservationId) : Prop :=
  ∃ n, drawn ≤ n ∧ id = uuids.draw n

variable {ι : Type}

/-- The stock is conserved: what the counters lack of `level` is exactly what the executions' bookings
have tied up. `before` are the reservations of others. -/
structure StockInv [Fintype ι] (level : String → Int) (before : ReservationId → Option Int)
    (unused : ReservationId → Prop) (redis : Redis) (gs : ι → Progress) : Prop where
  /-- No execution has two bookings of one id. -/
  own : ∀ i, ((gs i).taken.map Booking.id).Nodup
  /-- Nor have two executions. -/
  apart : ∀ {i j : ι} {b b' : Booking}, b ∈ (gs i).taken → b' ∈ (gs j).taken → b.id = b'.id → i = j
  /-- The ids of bookings have been drawn. -/
  used : ∀ {i : ι} {b : Booking}, b ∈ (gs i).taken → ¬ unused b.id
  /-- No reservation has an id that has not been drawn. -/
  vacant : ∀ {id : ReservationId}, unused id → before id = none
  /-- A booking that is live is live with its quantity. -/
  qty : ∀ {i : ι} {b : Booking} {q : Int}, b ∈ (gs i).taken → held redis b.id = some q → q = b.qty
  /-- What was asked to be released or committed is not live. -/
  gone : ∀ {i : ι} {b : Booking}, b ∈ (gs i).taken →
    b.id ∈ (gs i).released ∨ b.id ∈ (gs i).committed → held redis b.id = none
  /-- The reservations of others are untouched. -/
  others : ∀ {id : ReservationId}, (∀ i, ∀ b ∈ (gs i).taken, b.id ≠ id) → held redis id = before id
  /-- What is missing from the counter of an item is tied up by bookings of it. -/
  conserved : ∀ item, units redis item + ∑ i, (gs i).tied redis item = level item

/-- Nobody but the executions releases or commits their reservations, and no counter is negative. -/
structure Unshared (redis : Redis) (gs : ι → Progress) : Prop where
  /-- Bookings have positive quantities. -/
  pos : ∀ {i : ι} {b : Booking}, b ∈ (gs i).taken → 0 < b.qty
  /-- A booking is live until its execution releases or commits it. -/
  live : ∀ {i : ι} {b : Booking}, b ∈ (gs i).taken → b.id ∉ (gs i).released →
    b.id ∉ (gs i).committed → held redis b.id = some b.qty
  /-- No counter is negative. -/
  nonneg : ∀ w s, 0 ≤ units redis (itemName w s)

/-- A stored record is the record `o` after some transitions. -/
structure Records (o : Order) (ws : List Write) (o' : Order) : Prop where
  /-- It is the record of the same order. -/
  id : o'.id = o.id
  /-- It has its lines. -/
  lines : o'.lines = o.lines
  /-- Its status is the one that was stored last. -/
  status : o'.status = ((ws.getLast?).map Write.status).getD o.status
  /-- Its history goes on with what was stored. -/
  history : o'.history.map (fun e => (e.type, e.detail)) =
    o.history.map (fun e => (e.type, e.detail)) ++ ws.map fun w => (w.type, w.detail)

/-- The stored record of every order is what its own execution made of it, and the records of other
orders are untouched. -/
structure StoreInv (orders : ι → Order) (base store : OrderStore) (gs : ι → Progress) : Prop where
  /-- The driver never changes. -/
  driver : store.driver = base.driver
  /-- The record of each order, after what its execution has stored. -/
  own : ∀ i, ∃ o', store.get (orders i).id = some o' ∧ Records (orders i) (gs i).written o'
  /-- The records of other orders. -/
  others : ∀ {id : OrderId}, (∀ i, (orders i).id ≠ id) → store.get id = base.get id

/-- A provider's holdings, one at most for each order: an execution that has asked for one and not
given it back has it, and nobody else has. The provider refuses some orders. -/
structure Possession (ids : ι → OrderId) (refused : OrderId → Bool)
    (base holdings : OrderId → Option String) (has : ι → Prop) : Prop where
  /-- Who has asked and not given back has it. -/
  own : ∀ {i : ι}, has i → (holdings (ids i)).isSome
  /-- Nobody else has, apart from what was there. -/
  only : ∀ {i : ι}, (holdings (ids i)).isSome → has i ∨ (base (ids i)).isSome
  /-- Who has it was not refused. -/
  accepted : ∀ {i : ι}, has i → refused (ids i) = false
  /-- What other orders have is as it was. -/
  others : ∀ {id : OrderId}, (∀ i, ids i ≠ id) → holdings id = base id

/-- Time passes, and no key reaches its deadline: a reservation that lapses is not considered here. -/
def Idle (w w' : World) : Prop :=
  ∃ seconds ms, w' = { w with clock := w.clock + seconds, redis := w.redis.elapse ms } ∧
    ∀ key, w'.redis.lookup key = w.redis.lookup key

/-- Executions of the saga in any order, with time passing in between, but not so much that a reservation
lapses. The stock is counted in exact integers; `sagasOn` has the scripts count it. -/
def sagas (ι : Type) : System participants ι SagaError World Progress where
  handle := participate
  note := Progress.note
  guard _ _ _ _ := True
  env := Idle

/-- The account of executions of `run`, one for each order, from the state `base` on. -/
structure RunsInv [Fintype ι] (orders : ι → Order) (base w : World) (gs : ι → Progress) : Prop where
  /-- The stock is accounted for. -/
  stock : StockInv (units base.redis) (held base.redis) (Unused w.uuids w.drawn) w.redis gs
  /-- Nobody else resolves the reservations. -/
  unshared : Unshared w.redis gs
  /-- An execution has booked no more of an item than its order asks for. -/
  within : ∀ i item, demand (gs i).taken item ≤ lineDemand (orders i).lines item
  /-- The records are as the executions have left them. -/
  store : StoreInv orders base.store w.store gs
  /-- The charges are those of the executions. -/
  payments : Possession (fun i => (orders i).id) base.payments.failPaymentForOrderIds
    base.payments.charges w.payments.charges fun i => (gs i).charged = true
  /-- So are the shipments. -/
  shipping : Possession (fun i => (orders i).id) base.shipping.failShippingForOrderIds
    base.shipping.shipments w.shipping.shipments fun i => (gs i).shipped = true
  /-- The same orders are declined. -/
  declines : w.payments.failPaymentForOrderIds = base.payments.failPaymentForOrderIds
  /-- The same orders get no courier. -/
  noCourier : w.shipping.failShippingForOrderIds = base.shipping.failShippingForOrderIds

/-- A state in which the runs of `orders` may start: the orders are stored, their quantities are
positive, no counter is negative, and no reservation has an id that is still to be drawn. -/
structure Ready (orders : ι → Order) (w : World) : Prop where
  /-- No two of them have one id. -/
  ids : Function.Injective fun i => (orders i).id
  /-- They are stored as they are. -/
  stored : ∀ i, w.store.get (orders i).id = some (orders i)
  /-- Their quantities are positive. -/
  qty : ∀ i, ∀ l ∈ (orders i).lines, 0 < l.qty
  /-- No counter is negative. -/
  stock : ∀ warehouseId sku, 0 ≤ getAvailable w.redis warehouseId sku
  /-- No reservation has an id that is still to be drawn. -/
  vacant : ∀ id, Unused w.uuids w.drawn id → held w.redis id = none

/-- Why `run` of an order can fail: the stock does not cover all orders, or a failure is injected. -/
def faults [Fintype ι] (orders : ι → Order) (base : World) (i : ι) : Faults where
  short := ∃ warehouseId sku, getAvailable base.redis warehouseId sku <
    ∑ j, lineDemand (orders j).lines (itemName warehouseId sku)
  declined := base.payments.failPaymentForOrderIds (orders i).id = true
  noCourier := base.shipping.failShippingForOrderIds (orders i).id = true

end SupplyChain
