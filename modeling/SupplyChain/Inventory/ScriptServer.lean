import SupplyChain.Inventory.InMemoryRedis
import SupplyChain.Inventory.Ledger
import SupplyChain.Inventory.LuaScripts

/-!
# The service over the scripts

`InventoryService` over a client that evaluates `reserve.lua` and `release.lua` on texts, and the runs of the
inventory on such a server. Which numbers may come up in a run, for the scripts to count exactly, is a rule for
its operations.
-/

namespace SupplyChain

open InventoryService (itemName)

/-- The server with the scripts as they are. No key that the service reads has a value of another type. -/
def RedisLike.scripts (lua : LuaNumbers) : RedisLike Keyspace where
  get k key := (k, (k.get key).toOption.join)
  set k key value := k.put key (some ⟨.text value, none⟩)
  evalReserve k stockKey resvKey qty reservationId ttlSeconds :=
    (LuaScript.reserve lua [stockKey, resvKey] [toString qty, reservationId, toString ttlSeconds]).eval k
  evalRelease k stockKey resvKey mode := (LuaScript.release lua [stockKey, resvKey] [mode]).eval k

namespace Deployment

/-- The scripts and their clock. -/
def scripts (lua : LuaNumbers) : Deployment Keyspace where
  redis := .scripts lua
  elapse := Keyspace.elapse
  value k key := (k.get key).toOption.join

variable {σ : Type} (d : Deployment σ)

/-- One operation of any instance of the service, and what it is answered. -/
def run : Op → σ → σ × Reply
  | .setStock w sku qty, s => (d.redis.setStock s w sku qty, .done)
  | .reserve w sku qty ttl resv, s => (d.redis.reserve s w sku qty ttl resv).map id .reserved
  | .release w sku resv, s => (d.redis.release s w sku resv).map id .resolved
  | .commit w sku resv, s => (d.redis.commit s w sku resv).map id .resolved
  | .elapse ms, s => (d.elapse s ms, .done)

/-- Run operations one after the other, and keep what they were answered. -/
def runAll : List Op → σ → σ × List Event
  | [], s => (s, [])
  | op :: ops, s =>
    let (s, reply) := d.run op s
    let (s, events) := runAll ops s
    (s, ⟨op, reply⟩ :: events)

/-- Run some operations, one after the other; the list has the last one first. -/
def replay (start : σ) : List Op → Trace × σ
  | [] => ([], start)
  | op :: ops =>
    let (tr, s) := replay start ops
    (⟨op, (d.run op s).2⟩ :: tr, (d.run op s).1)

/-- The count that a reader finds. -/
def available (s : σ) (warehouseId : WarehouseId) (sku : Sku) : Int := (d.redis.getAvailable s warehouseId sku).2

end Deployment

/-! ## Runs -/

/-- The time to live of a reservation is a positive double, and its deadline has at most 63 bits. -/
def Op.Timely (now : Nat) : Op → Prop
  | .reserve _ _ _ ttlSeconds _ =>
    Decimal.IsDouble ttlSeconds ∧ 0 < ttlSeconds ∧ now + 1000 * ttlSeconds < 2 ^ 63
  | _ => True

instance (now : Nat) (op : Op) : Decidable (op.Timely now) := by
  cases op <;> unfold Op.Timely <;> infer_instance

namespace Trace

variable (tr : Trace)

/-- A counter is set to a value that has at most 53 bits also when all that is reserved of the item comes back,
and no deadline is refused. Quantities may be as large as they like. -/
def Within : Op → Prop
  | .setStock warehouseId sku qty => qty + openQty tr (itemName warehouseId sku) < 2 ^ 53
  | op => op.Timely (clock tr)

/-- Proper operations with numbers that the scripts count exactly. -/
def Counted (op : Op) : Prop := Proper tr op ∧ Within tr op

instance (op : Op) : Decidable (Proper tr op) := by
  cases op <;> unfold Proper <;> infer_instance

instance (op : Op) : Decidable (Within tr op) := by
  cases op <;> unfold Within <;> infer_instance

instance (op : Op) : Decidable (Counted tr op) := inferInstanceAs (Decidable (_ ∧ _))

end Trace

section Runs

variable (lua : LuaNumbers) (admits : Trace → Op → Prop)

/-- The runs of the scripts from an empty server, with operations that are admitted after what has happened. -/
inductive ScriptRun : Trace → Keyspace → Prop where
  /-- An empty server, and nothing has happened. -/
  | start : ScriptRun [] Keyspace.empty
  /-- One operation that is admitted is run. -/
  | step {tr : Trace} {k : Keyspace} (h : ScriptRun tr k) (op : Op) (ha : admits tr op) :
      ScriptRun (⟨op, ((Deployment.scripts lua).run op k).2⟩ :: tr) ((Deployment.scripts lua).run op k).1

/-- Each of the operations is admitted when it is run; the list has the last one first. -/
def AllAdmitted : List Op → Prop
  | [] => True
  | op :: ops => admits ((Deployment.scripts lua).replay Keyspace.empty ops).1 op ∧ AllAdmitted ops

instance decidableAllAdmitted [∀ tr op, Decidable (admits tr op)] :
    (ops : List Op) → Decidable (AllAdmitted lua admits ops)
  | [] => .isTrue trivial
  | op :: ops =>
    have := decidableAllAdmitted ops
    inferInstanceAs (Decidable (admits ((Deployment.scripts lua).replay Keyspace.empty ops).1 op ∧
      AllAdmitted lua admits ops))

end Runs

end SupplyChain
