import Mathlib.Data.Fintype.Option
import SupplyChain.Orders.Outcomes
import SupplyChain.Orders.Recovery

/-!
# Recoveries that race

Several recoveries of one order, and recoveries that race with a live run of it: what they start from,
the account they keep and what they come to.
-/

namespace SupplyChain

open Async InventoryService SagaOrchestrator

variable {κ : Type}

/-- A snapshot of the order: it reads non-terminal and records what the order records. -/
structure Snapshot (o snap : Order) : Prop where
  /-- It is of the order. -/
  id : snap.id = o.id
  /-- It reads non-terminal. -/
  stuck : isTerminalStatus snap.status = false
  /-- It records the same reservations. -/
  reservations : reservationsFromHistory snap = reservationsFromHistory o
  /-- It records the same charge and shipment. -/
  completed : completedFromHistory snap = completedFromHistory o

/-- A record of the order to whose history only compensations and cancellations were added. -/
structure Extends (o o' : Order) : Prop where
  /-- Only the status and the history have changed. -/
  record : o' = { o with status := o'.status, history := o'.history }
  /-- The history goes on with compensations and cancellations. -/
  history : ∃ extra, o'.history = o.history ++ extra ∧
    ∀ e ∈ extra, e.type = .compensating ∨ e.type = .cancelled

/-- What the order records is undone, each live reservation once, and nothing else has changed. -/
structure Undone (o : Order) (w w' : World) : Prop where
  /-- What was on hold is back in the counters. -/
  stock : ∀ warehouseId sku, getAvailable w'.redis warehouseId sku =
    getAvailable w.redis warehouseId sku +
      onHold w.redis (reservationsFromHistory o) (itemName warehouseId sku)
  /-- The recorded reservations are gone. -/
  held : ∀ id, held w'.redis id =
    if id ∈ (reservationsFromHistory o).map Reservation.reservationId then none
    else held w.redis id
  /-- The recorded charge is refunded. -/
  charges : w'.payments.charges = fun id =>
    if id = o.id ∧ (completedFromHistory o).paid = true then none else w.payments.charges id
  /-- The recorded shipment is cancelled. -/
  shipments : w'.shipping.shipments = fun id =>
    if id = o.id ∧ (completedFromHistory o).shipped = true then none
    else w.shipping.shipments id
  /-- The order is cancelled. -/
  cancelled : ∃ o', w'.store.get o.id = some o' ∧ o'.status = .CANCELLED ∧ Extends o o'
  /-- Other records are as they were. -/
  others : ∀ id, id ≠ o.id → w'.store.get id = w.store.get id

/-- The two worlds agree on all stock, reservations, charges, shipments and records, but for the history
of the order `o`. -/
structure SameOutcome (o : Order) (w w' : World) : Prop where
  /-- The counters are the same. -/
  stock : ∀ warehouseId sku,
    getAvailable w'.redis warehouseId sku = getAvailable w.redis warehouseId sku
  /-- The reservations are the same. -/
  held : ∀ id, held w'.redis id = held w.redis id
  /-- The charges are the same. -/
  charges : w'.payments.charges = w.payments.charges
  /-- The shipments are the same. -/
  shipments : w'.shipping.shipments = w.shipping.shipments
  /-- The records of the order differ in the history alone. -/
  record : ∃ o₁ o₂, w.store.get o.id = some o₁ ∧ w'.store.get o.id = some o₂ ∧
    o₂ = { o₁ with history := o₂.history }
  /-- The other records are the same. -/
  others : ∀ id, id ≠ o.id → w'.store.get id = w.store.get id

/-- The run that left the order behind, as the record tells it: it holds what is on record and live. -/
def crashedRun (o : Order) (redis : Redis) : Progress where
  taken := (reservationsFromHistory o).map fun r => ⟨r, (held redis r.reservationId).getD 0⟩

/-- The executions of a pool, and one that has stopped. -/
def withStopped (stopped : Progress) (gs : κ → Progress) : Option κ → Progress
  | none => stopped
  | some j => gs j

/-- A holding of the order `id` that is given back, if at all, by executions that may. -/
structure GivenBack (id : OrderId) (may : Prop) (base holdings : OrderId → Option String)
    (gave : κ → Prop) : Prop where
  /-- Only such executions give it back. -/
  allowed : ∀ {j : κ}, gave j → may
  /-- Until one does, the holdings are as they were. -/
  kept : (∀ j, ¬ gave j) → holdings = base
  /-- When one has, the holding is gone. -/
  gone : ∀ {j : κ}, gave j → holdings = fun x => if x = id then none else base x

/-- The account of recoveries of the order `o`, from the state `base` on. -/
structure RecoveriesInv [Fintype κ] (o : Order) (base w : World) (gs : κ → Progress) : Prop where
  /-- What was on hold is accounted for, with the stopped run as its owner. -/
  stock : StockInv
    (fun item => units base.redis item + onHold base.redis (reservationsFromHistory o) item)
    (held base.redis) (fun _ => False) w.redis (withStopped (crashedRun o base.redis) gs)
  /-- What one recovery has released is not live. -/
  freed : ∀ {j : κ} {r : Reservation}, r ∈ reservationsFromHistory o →
    r.reservationId ∈ (gs j).released → held w.redis r.reservationId = none
  /-- The stored status is the last one that some recovery stored. -/
  stored : ∃ o', w.store.get o.id = some o' ∧ Extends o o' ∧
    ((∀ j, (gs j).written = []) ∧ o'.status = o.status ∨ ∃ j, (gs j).status = some o'.status)
  /-- Other records are as they were. -/
  others : ∀ id, id ≠ o.id → w.store.get id = base.store.get id
  /-- What a recovery has read records what the order records. -/
  seen : ∀ {j : κ} {entry : Order}, (gs j).seen = some entry →
    reservationsFromHistory entry = reservationsFromHistory o ∧
      completedFromHistory entry = completedFromHistory o ∧
      (isTerminalStatus entry.status = true → ∃ k, (gs k).written ≠ [])
  /-- A recorded charge is refunded, if some recovery has got there. -/
  payments : GivenBack o.id ((completedFromHistory o).paid = true) base.payments.charges
    w.payments.charges fun j => (gs j).refunded = true
  /-- A recorded shipment is cancelled, if some recovery has got there. -/
  shipping : GivenBack o.id ((completedFromHistory o).shipped = true) base.shipping.shipments
    w.shipping.shipments fun j => (gs j).recalled = true

/-! ## A live run and recoveries of its order -/

/-- The part of a startup sweep that concerns one order: `recoverStuck` from the snapshot of it that
`nonTerminal` returned, if there was one. -/
def recoverListed (id : OrderId) : Saga (Option Order) := do
  let stuck ← await .nonTerminal
  match stuck.find? fun order => order.id = id with
  | none => return none
  | some order =>
    let order ← recoverStuck order
    return some order

/-- One run of the order, and recoveries of it. -/
def race (id : OrderId) : Option κ → Saga (Option Order)
  | none => do
    let order ← run id
    return some order
  | some _ => recoverListed id

/-- What keeps the run and the recoveries of the order `id` out of each other's way: the run commits only
what is still on hold and confirms only with a charge and a shipment, and no recovery touches an order
that is confirmed. -/
def KeepsClear (id : OrderId) : Option κ → Progress → Call → World → Prop
  | none, _, .commit _ _ r, w => (held w.redis r).isSome = true
  | none, _, .updateStatus _ .CONFIRMED _ _, w =>
    (w.payments.charges id).isSome = true ∧ (w.shipping.shipments id).isSome = true
  | some _, _, .updateStatus _ _ _ _, w => storedStatus w id ≠ some .CONFIRMED
  | some _, _, .refund _, w => storedStatus w id ≠ some .CONFIRMED
  | some _, _, .cancel _, w => storedStatus w id ≠ some .CONFIRMED
  | _, _, _, _ => True

instance (id : OrderId) (i : Option κ) (g : Progress) (c : Call) (w : World) :
    Decidable (KeepsClear id i g c w) := by
  unfold KeepsClear
  split <;> infer_instance

/-- The interleavings in which they keep clear of each other. -/
def clearSagas (κ : Type) (id : OrderId) :
    System participants (Option κ) SagaError World Progress :=
  { sagas (Option κ) with guard := KeepsClear id }

instance (id : OrderId) (i : Option κ) (g : Progress) (c : Call) (w : World) :
    Decidable ((clearSagas κ id).guard i g c w) :=
  inferInstanceAs (Decidable (KeepsClear id i g c w))

/-- The order is confirmed, consumed, charged and shipped, or it is cancelled and nothing of it is
left. -/
def AllOrNothing (o : Order) (w w' : World) : Prop :=
  (storedStatus w' o.id = some .CONFIRMED ∧
    (∀ warehouseId sku, getAvailable w'.redis warehouseId sku =
      getAvailable w.redis warehouseId sku - lineDemand o.lines (itemName warehouseId sku)) ∧
    (w'.payments.charges o.id).isSome = true ∧ (w'.shipping.shipments o.id).isSome = true) ∨
  (storedStatus w' o.id = some .CANCELLED ∧
    (∀ warehouseId sku, getAvailable w'.redis warehouseId sku =
      getAvailable w.redis warehouseId sku) ∧
    w'.payments.charges o.id = none ∧ w'.shipping.shipments o.id = none)

/-- The order's history records only what its run took. -/
def RecordsOf (run : Progress) (order : Order) : Prop :=
  ∀ r ∈ reservationsFromHistory order, r ∈ run.taken.map Booking.reservation

/-- What the record of the order, and the snapshots that recoveries have of it, say of the run. -/
structure RaceRecords (o : Order) (store : OrderStore) (gs : Option κ → Progress) : Prop where
  /-- The stored status is the last one that somebody stored, and the run's if it confirmed. -/
  stored : ∃ o', store.get o.id = some o' ∧ o'.lines = o.lines ∧ RecordsOf (gs none) o' ∧
    ((∀ i, (gs i).written = []) ∧ o'.status = o.status ∨ ∃ i, (gs i).status = some o'.status) ∧
    (Write.confirmed ∈ (gs none).written → o'.status = .CONFIRMED)
  /-- What the sweep was handed records only what the run took. -/
  listed : ∀ {j : κ} {order : Order}, order ∈ (gs (some j)).listed → order.id = o.id →
    RecordsOf (gs none) order
  /-- So does what a recovery has read. -/
  seen : ∀ {j : κ} {entry : Order}, (gs (some j)).seen = some entry → RecordsOf (gs none) entry

/-- The account of a live run of the order `o` and recoveries of it, from the state `base` on. -/
structure RaceInv [Fintype κ] (o : Order) (base w : World) (gs : Option κ → Progress) : Prop where
  /-- The stock is accounted for. -/
  stock : StockInv (units base.redis) (held base.redis) (Unused w.uuids w.drawn) w.redis gs
  /-- Recoveries take nothing. -/
  idle : ∀ j, (gs (some j)).taken = []
  /-- The records say only what the run did. -/
  records : RaceRecords o w.store gs
  /-- What is charged was charged by the run and not refunded by it. -/
  charged : (w.payments.charges o.id).isSome = true → (gs none).charged = true
  /-- A shipment that stands was scheduled by the run and not cancelled by it. -/
  shipped : (w.shipping.shipments o.id).isSome = true → (gs none).shipped = true
  /-- A confirmed order is charged and shipped. -/
  paid : Write.confirmed ∈ (gs none).written →
    (w.payments.charges o.id).isSome = true ∧ (w.shipping.shipments o.id).isSome = true

/-- What a live run and recoveries of its order promise. -/
def raceContract (o : Order) : Option κ → Contract participants SagaError Progress
  | none => runContract ⟨True, True, True⟩ o
  | some _ => recoverContract o.id fun g order => order ∈ g.listed

/-- A recovery that has returned stored nothing, or a cancellation last. -/
def Progress.Ended (g : Progress) : Prop :=
  g.taken = [] ∧ (g.written = [] ∨ g.status = some .CANCELLED)

end SupplyChain
