import SupplyChain.Orders.Accounts

/-!
# What a recovery does to the shared state

The effect of `recoverStuck` and of the startup sweep when nothing else runs, as functions of the records
that they read.
-/

namespace SupplyChain

open Async InventoryService SagaOrchestrator

/-- The item that is on hold. -/
abbrev Reservation.item (r : Reservation) : String := itemName r.warehouseId r.sku

/-- The server after the reservations are released one after the other. -/
def releaseEach (redis : Redis) (rs : List Reservation) : Redis :=
  rs.foldl (fun redis r => (InventoryService.release redis r.warehouseId r.sku r.reservationId).1) redis

/-- The quantity of an item that live reservations of the list hold. -/
def onHold (redis : Redis) (rs : List Reservation) (item : String) : Int :=
  (rs.map fun r => if r.item = item then (held redis r.reservationId).getD 0 else 0).sum

/-- The state after the recovery of an order whose record read `entry`. -/
structure Recovered (entry : Order) (w w' : World) : Prop where
  /-- The recorded reservations are released. -/
  redis : w'.redis = releaseEach w.redis (reservationsFromHistory entry)
  /-- The recorded charge is refunded. -/
  charges : w'.payments.charges = fun id =>
    if id = entry.id ∧ (completedFromHistory entry).paid = true then none else w.payments.charges id
  /-- The recorded shipment is cancelled. -/
  shipments : w'.shipping.shipments = fun id =>
    if id = entry.id ∧ (completedFromHistory entry).shipped = true then none
    else w.shipping.shipments id
  /-- The driver never changes. -/
  driver : w'.store.driver = w.store.driver
  /-- The order is cancelled. -/
  cancelled : ∃ o, w'.store.get entry.id = some o ∧ o.status = .CANCELLED
  /-- Other records are as they were. -/
  others : ∀ id, id ≠ entry.id → w'.store.get id = w.store.get id

/-- The state after the recovery of several orders. -/
structure Swept (os : List Order) (w w' : World) : Prop where
  /-- The recorded reservations are released, order after order. -/
  redis : w'.redis = releaseEach w.redis (os.flatMap reservationsFromHistory)
  /-- The driver never changes. -/
  driver : w'.store.driver = w.store.driver
  /-- Every order is cancelled. -/
  cancelled : ∀ entry ∈ os, ∃ o, w'.store.get entry.id = some o ∧ o.status = .CANCELLED
  /-- Recorded charges are refunded. -/
  charges : ∀ entry ∈ os, w'.payments.charges entry.id =
    if (completedFromHistory entry).paid = true then none else w.payments.charges entry.id
  /-- Recorded shipments are cancelled. -/
  shipments : ∀ entry ∈ os, w'.shipping.shipments entry.id =
    if (completedFromHistory entry).shipped = true then none else w.shipping.shipments entry.id
  /-- Other orders are as they were. -/
  others : ∀ id, id ∉ os.map Order.id → w'.store.get id = w.store.get id ∧
    w'.payments.charges id = w.payments.charges id ∧
    w'.shipping.shipments id = w.shipping.shipments id

/-! ## `recoverStuck` as a state machine -/

/-- What a recovery has done after it read `entry`. -/
structure Progress.Recovers (g : Progress) (entry : Order) (written : List Write)
    (released : List ReservationId) : Prop where
  /-- It has reserved nothing. -/
  taken : g.taken = []
  /-- What it has read. -/
  seen : g.seen = some entry
  /-- What it has stored. -/
  written : g.written = written
  /-- What it has released. -/
  released : g.released = released

/-- The flags that say what a recovery has given back. -/
def Progress.GaveBack (g : Progress) (completed : Completed) : Prop :=
  (completed.paid = true → g.refunded = true) ∧ (completed.shipped = true → g.recalled = true)

/-- The recovery has returned: it left a terminal order alone, or undid what the record says. -/
inductive Progress.HasRecovered (g : Progress) : Prop where
  /-- The order was terminal. -/
  | leftAlone {entry : Order} (hterm : isTerminalStatus entry.status = true)
      (hg : g.Recovers entry [] [])
  /-- The order was not, and it is undone. -/
  | recovered {entry : Order} (hterm : isTerminalStatus entry.status = false) {detail : EventDetail}
      (hg : g.Recovers entry [.compensating, .cancelled detail]
        ((reservationsFromHistory entry).map Reservation.reservationId))
      (hback : g.GaveBack (completedFromHistory entry))

/-- The call that a recovery of the order `id` awaits. `Known` are the snapshots it may start from. -/
def RecoverAllowed (id : OrderId) (Known : Progress → Order → Prop) (g : Progress) : Call → Prop
  | .nonTerminal => g.written = []
  | .fields order => order.id = id ∧ (g.seen = none → Known g order)
  | .updateStatus id' status type detail => id' = id ∧
    ((g.written = [] ∧ Write.mk status type detail = .compensating) ∨
      (g.written = [.compensating] ∧ ∃ d, Write.mk status type detail = .cancelled d))
  | .publish .. => True
  | .cancel id' => id' = id ∧
    ∃ entry, g.seen = some entry ∧ (completedFromHistory entry).shipped = true
  | .refund id' => id' = id ∧
    ∃ entry, g.seen = some entry ∧ (completedFromHistory entry).paid = true
  | .release w s r => ∃ entry, g.seen = some entry ∧ ⟨w, s, r⟩ ∈ reservationsFromHistory entry
  | .get id' => id' = id ∧ g.seen ≠ none
  | _ => False

/-- The contract of a recovery of the order `id`. It never throws. -/
def recoverContract (id : OrderId) (Known : Progress → Order → Prop) :
    Contract participants SagaError Progress where
  pre g c := g.taken = [] ∧ RecoverAllowed id Known g c
  ans _ c r :=
    match c, r with
    | .get _, r => r.isSome = true
    | _, _ => True
  thrown _ _ := False

end SupplyChain
