import SupplyChain.Orders.Accounts

/-!
# What executions know of the orders they write

Any mix of runs, recoveries and sweeps over one store. `Sights` is what an execution knows of each order:
the record as it read it last before it stored its first transition, and then what its own transitions
made of it. Nothing in the code compares that with the stored record before it writes.
-/

namespace SupplyChain

open Async SagaOrchestrator

/-- The status and the number of events that an execution knows of an order. -/
structure Sight where
  /-- The status that was seen, or stored by the execution itself. -/
  status : OrderStatus
  /-- How long the history was. -/
  events : Nat
  /-- Whether the execution has stored a transition of the order. -/
  wrote : Bool
  deriving DecidableEq

/-- The sight of a record that was just read. -/
def Order.sight (order : Order) : Sight := ⟨order.status, order.history.length, false⟩

/-- What an execution knows of each order. -/
abbrev Sights := OrderId → Option Sight

namespace Sights

/-- The execution reads a record. -/
def look (g : Sights) (order : Order) : Sights :=
  if (g order.id).any Sight.wrote then g else Function.update g order.id (some order.sight)

/-- What it knows after one more call. -/
def note (g : Sights) : (c : Call) → c.Reply → Sights
  | .get _, some order => g.look order
  | .nonTerminal, os => os.foldl look g
  | .fields _, order => g.look order
  | .updateStatus id status _ _, _ =>
    Function.update g id (some ⟨status, ((g id).map Sight.events).getD 0 + 1, true⟩)
  | _, _ => g

/-- It knows the order, and not as a terminal one. -/
def Active (g : Sights) (id : OrderId) : Prop :=
  ∃ v, g id = some v ∧ isTerminalStatus v.status = false

end Sights

/-- An execution: of an event, of `recoverStuck` from a snapshot that is read at some time, or of the
sweep. -/
inductive Job where
  /-- `run` -/
  | run (id : OrderId)
  /-- `recoverStuck`, from a snapshot that it reads itself. -/
  | recover (id : OrderId)
  /-- `recoverStuckOrders` -/
  | sweep
  deriving DecidableEq

namespace Job

/-- What the job executes. -/
def saga : Job → Saga Unit
  | .run id => do
    let _ ← SagaOrchestrator.run id
  | .recover id => do
    match ← await (.get id) with
    | none => return ()
    | some order =>
      let _ ← recoverStuck order
  | .sweep => do
    let _ ← recoverStuckOrders

/-- Whether it is a `run`. -/
def isRun : Job → Bool
  | .run _ => true
  | _ => false

end Job

/-- Executions in any order. Everything but the order store may change in between. -/
def jobs (ι : Type) : System participants ι SagaError World Sights where
  handle := participate
  note := Sights.note
  guard _ _ _ _ := True
  env w w' := w'.store = w.store

/-- No run starts on an order that is terminal, and what is written was not written by others since it
was seen. -/
def UpToDate (job : Job) (g : Sights) : Call → World → Prop
  | .get id, w => job.isRun = true → g id = none →
    (w.store.get id).any (fun order => isTerminalStatus order.status) = false
  | .updateStatus id _ _ _, w =>
    (g id).map Sight.events = (w.store.get id).map fun order => order.history.length
  | _, _ => True

instance (job : Job) (g : Sights) (c : Call) (w : World) : Decidable (UpToDate job g c w) :=
  match c with
  | .get id => inferInstanceAs (Decidable (job.isRun = true → g id = none →
      (w.store.get id).any (fun order => isTerminalStatus order.status) = false))
  | .updateStatus id _ _ _ => inferInstanceAs (Decidable ((g id).map Sight.events =
      (w.store.get id).map fun order => order.history.length))
  | .create .. | .nonTerminal | .fields _ | .publish .. | .reserve .. | .release .. | .commit ..
  | .charge .. | .refund _ | .schedule .. | .cancel _ => .isTrue trivial

variable {ι : Type}

/-- The interleavings in which every execution is up to date when it writes. -/
def upToDateJobs (js : ι → Job) : System participants ι SagaError World Sights :=
  { jobs ι with guard := fun i => UpToDate (js i) }

instance (js : ι → Job) (i : ι) (g : Sights) (c : Call) (w : World) :
    Decidable ((upToDateJobs js).guard i g c w) :=
  inferInstanceAs (Decidable (UpToDate (js i) g c w))

/-- A sight is of the record as it was some events ago. -/
def Sight.Of (v : Sight) (order : Order) : Prop :=
  v.events ≤ order.history.length ∧ (v.events = order.history.length → v.status = order.status)

/-- All sights are of the stored records. -/
def SightsInv (w : World) (gs : ι → Sights) : Prop :=
  ∀ i id v, gs i id = some v → ∃ order, w.store.get id = some order ∧ v.Of order

/-- All sights are of the stored records, and some terminal records are as they were. -/
structure Keeps (kept : OrderId → Order → Prop) (w : World) (gs : ι → Sights) : Prop where
  /-- The sights are of the stored records. -/
  sights : SightsInv w gs
  /-- The records that are kept. -/
  kept : ∀ {id : OrderId} {order : Order}, kept id order →
    isTerminalStatus order.status = true ∧ w.store.get id = some order

/-- What an execution promises: it writes only orders that it does not know to be terminal. -/
def jobContract (job : Job) : Contract participants SagaError Sights where
  pre g c :=
    match c with
    | .create .. => False
    | .fields order => ∃ v, g order.id = some v ∧ (v.wrote = true ∨ v = order.sight)
    | .updateStatus id _ _ _ => g.Active id
    | _ => True
  ans g c r :=
    match c, r with
    | .get id, some order =>
      order.id = id ∧ (job.isRun = true → g id = none → isTerminalStatus order.status = false)
    | .nonTerminal, os => (os.map Order.id).Nodup
    | .fields order, entry => entry.id = order.id
    | _, _ => True
  thrown _ _ := True

end SupplyChain
