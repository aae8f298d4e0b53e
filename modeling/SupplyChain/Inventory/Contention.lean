import SupplyChain.Inventory.ScriptServer

/-!
# Contention for one counter

Any number of `InventoryService` instances reserve from one counter. Their calls reach the server one at
a time, in some order, with time passing in between.
-/

namespace SupplyChain

open InventoryService

/-- The operation reserves a positive quantity under the key, or time passes. -/
def Contends (key : String) : Op → Prop
  | .reserve warehouseId sku qty _ _ => stockKey warehouseId sku = key ∧ 0 < qty
  | .elapse _ => True
  | _ => False

/-- No deadline is refused when the operations are run from the time `now` on. -/
def Punctual : Nat → List Op → Prop
  | _, [] => True
  | now, op :: ops => op.Timely now ∧ Punctual (now + op.ms) ops

/-- The counter under the key reads `qty`, and has no deadline. If it is zero, it may be missing. -/
def Stocked (k : Keyspace) (key : String) (qty : Int) : Prop :=
  k.entries key = some ⟨.text (toString qty), none⟩ ∨ k.entries key = none ∧ qty = 0

namespace Op

/-- The quantity that a reserve call asks for. -/
def requested : Op → Option Int
  | .reserve _ _ qty _ _ => some qty
  | _ => none

end Op

namespace Event

/-- The quantity of a reserve call that was accepted. -/
def accepted : Event → Option Int
  | ⟨.reserve _ _ qty _ _, .reserved (.ok (.accepted _ _))⟩ => some qty
  | _ => none

/-- The quantity of a reserve call that was rejected. -/
def rejected : Event → Option Int
  | ⟨.reserve _ _ qty _ _, .reserved (.ok (.rejected _ _))⟩ => some qty
  | _ => none

end Event

end SupplyChain
