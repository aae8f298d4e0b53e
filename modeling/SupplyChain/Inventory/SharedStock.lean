import SupplyChain.Inventory.Ledger
import SupplyChain.Inventory.RedisServer
import Mathlib.Algebra.BigOperators.Group.Finset.Basic

/-!
# Stock that services share

What a number of services put in stock of an item, and what they have been told is reserved for them.
-/

namespace SupplyChain

open InventoryService (itemName)

namespace InventoryCall

/-- The units of an item that a call puts in stock. -/
def stocked (item : String) : InventoryCall → Int
  | setStock warehouseId sku qty => if itemName warehouseId sku = item then qty else 0
  | _ => 0

/-- The units of an item that an answer promises, if it is the one to a reservation of `ids`. -/
def promised (item : String) (ids : List ReservationId) : InventoryCall → InventoryReply → Int
  | reserve warehouseId sku qty _ id, .reserved (.ok (.accepted _ _)) =>
    if itemName warehouseId sku = item ∧ id ∈ ids then qty else 0
  | _, _ => 0

/-- The id that a call draws. -/
def drawn : InventoryCall → Option ReservationId
  | reserve _ _ _ _ id => some id
  | _ => none

/-- The reservation that a call resolves. -/
def resolves : InventoryCall → Option Reservation
  | release warehouseId sku id => some ⟨warehouseId, sku, id⟩
  | commit warehouseId sku id => some ⟨warehouseId, sku, id⟩
  | _ => none

/-- The units of an item that a service has been told are reserved for it, in the reservations of `ids`. -/
def told (item : String) (ids : List ReservationId) (calls : List InventoryCall)
    (settled : List (Nat × Settlement)) : Int :=
  (settled.map fun s => (calls[s.1]?.bind fun c => (c.reading s.2).map (c.promised item ids)).getD 0).sum

end InventoryCall

/-- Stock is not negative, times to live are positive, no id is drawn twice, and whoever resolves a reservation
names the pair that it was taken from. -/
structure Orderly {ι : Type} (calls : ι → List InventoryCall) : Prop where
  /-- Nobody sets a counter below zero. -/
  stock : ∀ i w s (qty : Int), .setStock w s qty ∈ calls i → 0 ≤ qty
  /-- Every time to live is positive. -/
  ttl : ∀ i w s id (qty ttl : Int), .reserve w s qty ttl id ∈ calls i → 0 < ttl
  /-- A service draws no id twice. -/
  once : ∀ i, ((calls i).filterMap InventoryCall.drawn).Nodup
  /-- No two services draw the same id. -/
  apart : ∀ i j, i ≠ j →
    ((calls i).filterMap InventoryCall.drawn).Disjoint ((calls j).filterMap InventoryCall.drawn)
  /-- Whoever resolves a reservation names the pair that it was made for. -/
  named : ∀ i j w s id r (qty ttl : Int), .reserve w s qty ttl id ∈ calls i →
    r ∈ (calls j).filterMap InventoryCall.resolves → r.reservationId = id → r = ⟨w, s, id⟩

/-- The time that passes. -/
def WireAction.elapsed {ι : Type} (actions : List (WireAction ι)) : Nat :=
  (actions.map fun
    | .elapse ms => ms
    | _ => 0).sum

/-- Less than 2^53 units of an item are put in stock in all, and no deadline has more than 63 bits. -/
structure Bounded {ι : Type} [Fintype ι] (calls : ι → List InventoryCall) (actions : List (WireAction ι)) :
    Prop where
  /-- What is put in stock of an item comes to less than 2^53 units. -/
  stock : ∀ item, ∑ i, ((calls i).map (InventoryCall.stocked item)).sum < 2 ^ 53
  /-- Times to live are doubles whose deadlines have at most 63 bits. -/
  reserve : ∀ i w s id (qty ttl : Int), .reserve w s qty ttl id ∈ calls i →
    Decimal.IsDouble ttl ∧ WireAction.elapsed actions + 1000 * ttl < 2 ^ 63

end SupplyChain
