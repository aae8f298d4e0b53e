import SupplyChain.Orders.Outcomes
import SupplyChain.Orders.Recovery

/-!
# Interrupted runs

A crash stops `run` between two awaited calls: what remains is the shared state, wherever the run got
to. A rejected call stops it as well, whether or not the call took effect first.
-/

namespace SupplyChain

open Async InventoryService SagaOrchestrator

/-- The order `o` has just been created in the world `w`, and nothing was done for it yet. -/
structure Starts (o : Order) (w : World) : Prop extends Ready (fun _ : Unit => o) w where
  /-- Its saga has not got anywhere. -/
  created : o.status = .CREATED
  /-- Nothing is recorded. -/
  noHistory : o.history = []
  /-- Nothing is charged. -/
  noCharge : w.payments.charges o.id = none
  /-- Nothing is scheduled. -/
  noShipment : w.shipping.shipments o.id = none

/-- `run` of the order `o` alone, stopped somewhere between two awaited calls. -/
abbrev StoppedRun := Pool participants Unit SagaError World Progress Order

/-- The points that `run` of `o`, started in `w`, passes. -/
def Passes (o : Order) (w : World) (P : StoppedRun) : Prop :=
  (sagas Unit).Reaches ⟨w, fun _ => {}, fun _ => run o.id⟩ P

/-- Every stock key that the order touches is at the level it had in `w`. -/
def StockRestored (o : Order) (w w' : World) : Prop :=
  ∀ l ∈ o.lines, getAvailable w'.redis l.warehouseId l.sku = getAvailable w.redis l.warehouseId l.sku

/-- The order is neither charged nor shipped. -/
def NothingHeld (o : Order) (w : World) : Prop :=
  w.payments.charges o.id = none ∧ w.shipping.shipments o.id = none

/-- Only the order `o` has live reservations on record: the recovery of others leaves the stock alone. -/
def OthersIdle (o : Order) (w : World) : Prop :=
  ∀ o' ∈ w.store.nonTerminal, o'.id ≠ o.id →
    ∀ r ∈ reservationsFromHistory o', held w.redis r.reservationId = none

/-- Every reservation that was granted is released, or it is on record and not committed. -/
def Progress.Releasable (g : Progress) : Prop :=
  ∀ b ∈ g.taken, b.id ∈ g.released ∨ Write.reserved g.taken ∈ g.written ∧ b.id ∉ g.committed

/-- A charge that stands and a shipment that stands are on record. -/
def Progress.OnRecord (g : Progress) : Prop :=
  (g.charged = true → ∃ paymentId, Write.paid paymentId ∈ g.written) ∧
    (g.shipped = true → ∃ shipmentId, Write.scheduled shipmentId ∈ g.written)

/-- The calls that go to a participant and come back; reads and the passing on of fields do not fail. -/
def CanReject : Call → Prop
  | .reserve .. | .charge .. | .schedule .. | .commit .. | .updateStatus .. | .publish .. => True
  | _ => False

/-- What a rejected call leaves: what it does, if it had taken effect, or nothing. -/
def afterRejection (c : Call) (landed : Bool) (w : World) : World :=
  if landed then (participate c w).1 else w

/-- The order is in a terminal status and, unless it is confirmed, fully undone. -/
def Finished (o : Order) (w w' : World) : Prop :=
  ∃ status, storedStatus w' o.id = some status ∧ isTerminalStatus status = true ∧
    (status ≠ .CONFIRMED → StockRestored o w w' ∧ NothingHeld o w')

/-- The rejected call comes after the terminal status was stored, or is the one that stores it and took
effect. -/
def AfterTheEnd (c : Call) (landed : Bool) : Prop :=
  match c with
  | .publish _ type _ => type = .confirmed ∨ type = .cancelled
  | .updateStatus _ status _ _ => landed = true ∧ isTerminalStatus status = true
  | _ => False

end SupplyChain
