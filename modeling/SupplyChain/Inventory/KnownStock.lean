import SupplyChain.Collections.InsertionMap
import SupplyChain.Inventory.Ledger

/-!
# The registry of known stock

What an `InventoryService` of one process remembers: every pair that it has set stock for or has tried
to reserve from, kept under the pair's stock key. `listAll` reports the stock of these.
-/

namespace SupplyChain

open Collections InventoryService

/-- A row of what `listAll` returns. -/
structure KnownStockRecord where
  /-- The warehouse of the pair. -/
  warehouseId : WarehouseId
  /-- The item of the pair. -/
  sku : Sku
  /-- What its counter has. -/
  available : Int

/-- An `InventoryService`, and the server that it talks to. -/
structure InventoryProcess where
  /-- The server that all processes share. -/
  redis : Redis
  /-- The registry of this process: the pair that a stock key was last used for. -/
  known : InsertionMap String (WarehouseId × Sku)

namespace InventoryProcess

/-- A process that has just been started. -/
def started (redis : Redis) : InventoryProcess := ⟨redis, .empty⟩

/-- `noteKnown`: the pair replaces another one with the same key. -/
def noteKnown (p : InventoryProcess) (warehouseId : WarehouseId) (sku : Sku) : InventoryProcess :=
  { p with known := p.known.set (stockKey warehouseId sku) (warehouseId, sku) }

/-- An operation of this process. A quantity that is not positive is rejected at once. -/
def call (p : InventoryProcess) : Op → InventoryProcess
  | .setStock warehouseId sku qty =>
    { p with redis := setStock p.redis warehouseId sku qty }.noteKnown warehouseId sku
  | .reserve warehouseId sku qty ttlSeconds id =>
    if qty ≤ 0 then p
    else
      let p := p.noteKnown warehouseId sku
      { p with redis := (reserve p.redis warehouseId sku qty ttlSeconds id).1 }
  | .release warehouseId sku id => { p with redis := (release p.redis warehouseId sku id).1 }
  | .commit warehouseId sku id => { p with redis := (commit p.redis warehouseId sku id).1 }
  | .elapse ms => { p with redis := p.redis.elapse ms }

/-- Run calls one after the other. -/
def calls (p : InventoryProcess) (ops : List Op) : InventoryProcess := ops.foldl call p

/-- `listAll`. The records are sorted by their names, which `localeCompare` compares. -/
def listAll (p : InventoryProcess) (localeCompare : String → String → Ordering) :
    List KnownStockRecord :=
  let records := p.known.values.map fun (warehouseId, sku) =>
    KnownStockRecord.mk warehouseId sku (getAvailable p.redis warehouseId sku)
  records.mergeSort fun a b =>
    localeCompare (a.warehouseId ++ a.sku) (b.warehouseId ++ b.sku) != .gt

end InventoryProcess

namespace KnownStockRecord

/-- The pair that a row is about. -/
def pair (r : KnownStockRecord) : WarehouseId × Sku := (r.warehouseId, r.sku)

end KnownStockRecord

namespace Op

/-- The operation is a call that names the pair. -/
def Names (warehouseId : WarehouseId) (sku : Sku) : Op → Prop
  | .setStock w s _ | .reserve w s _ _ _ | .release w s _ | .commit w s _ => w = warehouseId ∧ s = sku
  | .elapse _ => False

/-- The pair that the operation sets or tries to reserve. -/
def touches : Op → Option (WarehouseId × Sku)
  | .setStock warehouseId sku _ => some (warehouseId, sku)
  | .reserve warehouseId sku qty _ _ => if qty ≤ 0 then none else some (warehouseId, sku)
  | _ => none

end Op

end SupplyChain
