import SupplyChain.Collections.Proofs.InsertionMapProofs
import SupplyChain.Types

/-!
# `OrderStore`

The unscoped view of the order store that the saga and the recovery sweep use. The two implementations
differ here in two respects, which `StoreDriver` captures: `InMemoryOrderStore` hands out its live
records while `PgOrderStore` hands out copies, and each lists rows in an order of its own.
-/

namespace SupplyChain

open Collections

/-- `TERMINAL_ORDER_STATUSES` and `isTerminalStatus`. -/
def isTerminalStatus : OrderStatus → Bool
  | .CONFIRMED | .CANCELLED | .FAILED => true
  | _ => false

/-- What distinguishes the implementations of `OrderStore`. -/
structure StoreDriver where
  /-- Whether the records that were read are the stored ones, and change with them. -/
  live : Bool
  /-- The order in which `nonTerminal` lists what it finds. -/
  listing : List Order → List Order
  /-- Listing neither loses nor invents a row. -/
  listing_perm : ∀ os, (listing os).Perm os

/-- `InMemoryOrderStore`: live records, listed in insertion order. -/
def StoreDriver.inMemory : StoreDriver where
  live := true
  listing := id
  listing_perm := List.Perm.refl

/-- `PgOrderStore`: copies, `ORDER BY created_at ASC`. -/
def StoreDriver.pg : StoreDriver where
  live := false
  listing os := os.mergeSort fun a b => a.createdAt ≤ b.createdAt
  listing_perm os := List.mergeSort_perm os _

/-- An order store. Every record is stored under its own id. -/
structure OrderStore where
  /-- The orders, by their ids. -/
  orders : InsertionMap OrderId Order
  /-- Which of the two stores it is. -/
  driver : StoreDriver
  /-- An order is stored under its own id. -/
  keyed : ∀ {id o}, orders.get id = some o → o.id = id

namespace OrderStore

/-- A store without orders. -/
def empty (driver : StoreDriver) : OrderStore where
  orders := .empty
  driver := driver
  keyed h := by cases h

/-- The order, under its id. -/
def put (store : OrderStore) (order : Order) : OrderStore where
  orders := store.orders.set order.id order
  driver := store.driver
  keyed := by
    intro id o h
    rw [InsertionMap.get_set] at h
    by_cases hid : id = order.id
    · rw [if_pos hid, Option.some.injEq] at h
      rw [← h, hid]
    · rw [if_neg hid] at h
      exact store.keyed h

/-- `create` -/
def create (store : OrderStore) (order : Order) : OrderStore := store.put order

/-- `get` -/
def get (store : OrderStore) (id : OrderId) : Option Order := store.orders.get id

/-- `updateStatus`: nothing for an unknown order. -/
def updateStatus (store : OrderStore) (id : OrderId) (status : OrderStatus) (event : OrderEvent) :
    Option OrderStore :=
  (store.get id).map fun order => store.put { order with status, history := order.history ++ [event] }

/-- `nonTerminal` -/
def nonTerminal (store : OrderStore) : List Order :=
  store.driver.listing (store.orders.values.filter fun o => !isTerminalStatus o.status)

/-- The fields of a record that was read earlier, as they read now. -/
def fields (store : OrderStore) (order : Order) : Order :=
  if store.driver.live then (store.get order.id).getD order else order

end OrderStore

end SupplyChain
