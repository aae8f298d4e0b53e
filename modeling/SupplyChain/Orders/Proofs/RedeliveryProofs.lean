import SupplyChain.Orders.Proofs.CrashProofs
import SupplyChain.Orders.Redelivery

/-!
# Proofs: a redelivered event runs the saga again

`run` does not look at the status of the order. An order that a run cancels is cancelled again without a
trace in the stock, an order that a run confirms is charged for stock a second time or cancelled.
-/

namespace SupplyChain

open Async InventoryService SagaOrchestrator

variable {o o₁ : Order} {w w' w₁ : World} {g : Progress} {event : DomainEvent}

/-! ## The effect of one run -/

theorem RunsInv.level (hI : RunsInv (fun _ : Unit => o₁) w w' fun _ => g) (warehouseId : WarehouseId)
    (sku : Sku) : getAvailable w'.redis warehouseId sku +
      g.tied w'.redis (itemName warehouseId sku) = getAvailable w.redis warehouseId sku := by
  rw [getAvailable_eq, getAvailable_eq]
  simpa using hI.stock.conserved (itemName warehouseId sku)

theorem Confirms.congr (hf : SameFaults w w') (hs : ∀ warehouseId sku,
    getAvailable w'.redis warehouseId sku = getAvailable w.redis warehouseId sku) :
    Confirms o w' ↔ Confirms o w := by
  simp [Confirms, hf.1, hf.2, hs]

end SupplyChain
