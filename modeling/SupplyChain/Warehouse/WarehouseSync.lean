import SupplyChain.Async.Settle
import SupplyChain.Events.EventBus
import SupplyChain.Types
import Mathlib.Algebra.Ring.Int.Defs

/-!
# Warehouse nodes on the bus

`WarehouseNode` and `emitStockChange` of `warehouseSync.ts` over the in-memory bus. Stock events carry
integers; the `reason` of a change is left out, since no node reads it.
-/

namespace SupplyChain

open Async

/-- `STOCK_EVENTS_TOPIC` -/
def STOCK_EVENTS_TOPIC : String := "stock-events"

/-- The payload of a `stock.changed` event. -/
structure StockEvent where
  /-- The item. -/
  sku : Sku
  /-- By how much its stock changes. -/
  delta : Int
  deriving DecidableEq

/-- The sum of the deltas of one item, as an exact integer. -/
def total (sku : Sku) (log : List StockEvent) : Int :=
  (log.map fun e => if e.sku = sku then e.delta else 0).sum

/-- `WarehouseNode`. An item that has no entry in `localStock` counts as zero. -/
structure WarehouseNode where
  /-- `nodeId` -/
  nodeId : String
  /-- `localStock` -/
  localStock : Sku → Int
  /-- `connected` -/
  connected : Bool
  /-- `appliedCount` -/
  appliedCount : Nat

namespace WarehouseNode

/-- A new node, which the constructor subscribes to the bus. -/
def new (nodeId : String) : WarehouseNode := ⟨nodeId, fun _ => 0, true, 0⟩

/-- The group of a node, which nodes of one id share. -/
def groupId (nodeId : String) : String := "warehouse-node:" ++ nodeId

/-- `apply`: the stock of the item, and one more event applied. In the source it is a sum of doubles, exact as
long as the sums stay within 2^53. -/
def apply (node : WarehouseNode) (event : StockEvent) : WarehouseNode :=
  { node with
    localStock sku :=
      if sku = event.sku then node.localStock sku + event.delta else node.localStock sku
    appliedCount := node.appliedCount + 1 }

/-- `get` -/
def get (node : WarehouseNode) (sku : Sku) : Int := node.localStock sku

/-- The handler that the constructor subscribes. -/
def handle (node : WarehouseNode) (event : StockEvent) : WarehouseNode :=
  if !node.connected then node else node.apply event

/-- `disconnect`: events that come in are dropped from now on. -/
def disconnect (node : WarehouseNode) : WarehouseNode := { node with connected := false }

/-- `reconnect`, with what `history` returns. -/
def reconnect (node : WarehouseNode) (history : List StockEvent) : WarehouseNode :=
  (history.drop node.appliedCount).foldl apply { node with connected := true }

end WarehouseNode

/-- A node with what has happened to it. -/
structure Replica where
  /-- The node. -/
  node : WarehouseNode
  /-- Its handler's place in its group, and the cursor of the group when it joined. -/
  position : Nat
  /-- The cursor of the group when it joined. -/
  joinedAt : Nat
  /-- The length of the log at its last `reconnect`. -/
  reconnectedAt : Option Nat
  /-- The places in the log of the events it has applied, in the order in which it did. -/
  applied : List Nat
  /-- While connected, it was handed an event that was published before its last `reconnect`; or, if it
  joined a group that had already received events, before it was ever reconnected. -/
  misdelivered : Bool

namespace Replica

/-- The key of its group on the bus. -/
def key (r : Replica) : String :=
  groupKey STOCK_EVENTS_TOPIC (WarehouseNode.groupId r.node.nodeId)

/-- The event at `index` in the log was handed over before the node can know what precedes it. -/
def early (r : Replica) (index : Nat) : Bool :=
  match r.reconnectedAt with
  | some length => index < length
  | none => 0 < r.joinedAt

/-- Its handler is called with the event at `index` in the log. -/
def handle (r : Replica) (index : Nat) (event : StockEvent) : Replica :=
  { r with
    node := r.node.handle event
    applied := if r.node.connected then r.applied ++ [index] else r.applied
    misdelivered := r.misdelivered || (r.node.connected && r.early index) }

/-- `disconnect` -/
def disconnect (r : Replica) : Replica := { r with node := r.node.disconnect }

/-- `metrics.reservationsRejected` -/
def reconnect (r : Replica) (history : List StockEvent) : Replica :=
  { r with
    node := r.node.reconnect history
    applied := r.applied ++
      List.range' r.node.appliedCount (history.length - r.node.appliedCount)
    reconnectedAt := some history.length }

end Replica

/-- A bus and the nodes on it. The handler of a node is its index. -/
structure Warehouses where
  /-- The bus, with what has been seen of it. -/
  bus : ObservedBus StockEvent Nat
  /-- The nodes, in the order in which they were made. -/
  nodes : List Replica

/-- What can happen next. -/
inductive WarehouseAction where
  /-- `new WarehouseNode(nodeId)` -/
  | create (nodeId : String)
  /-- `emitStockChange`, up to where it awaits the end of the pass. -/
  | emitStockChange (sku : Sku) (delta : Int)
  /-- `disconnect` of a node. -/
  | disconnect (node : Nat)
  /-- `reconnect` of a node. -/
  | reconnect (node : Nat)
  /-- The delivery pass goes on. -/
  | go

namespace Warehouses

/-- A bus without nodes. -/
def empty : Warehouses := ⟨.empty, []⟩

/-- The log of stock events. -/
def log (w : Warehouses) : List StockEvent := w.bus.bus.history STOCK_EVENTS_TOPIC

/-- `new WarehouseNode(nodeId)`, whose constructor subscribes its handler. -/
def create (w : Warehouses) (nodeId : String) : Warehouses :=
  let groupId := WarehouseNode.groupId nodeId
  let key := groupKey STOCK_EVENTS_TOPIC groupId
  { bus := w.bus.subscribe STOCK_EVENTS_TOPIC groupId w.nodes.length
    nodes := w.nodes ++ [
      { node := .new nodeId
        position := (w.bus.bus.groupHandlers key).length
        joinedAt := (w.bus.bus.groupCursors.get key).getD 0
        reconnectedAt := none
        applied := []
        misdelivered := false }] }

/-- `emitStockChange`, up to its `await`. -/
def emitStockChange (w : Warehouses) (sku : Sku) (delta : Int) : Warehouses :=
  { w with bus := w.bus.publish STOCK_EVENTS_TOPIC ⟨sku, delta⟩ }

/-- `disconnect` of a node. -/
def disconnect (w : Warehouses) (node : Nat) : Warehouses :=
  { w with nodes := w.nodes.modify node Replica.disconnect }

/-- `reconnect` of a node. -/
def reconnect (w : Warehouses) (node : Nat) : Warehouses :=
  { w with nodes := w.nodes.modify node fun r => r.reconnect w.log }

/-- A step of the delivery pass, and of the node that it calls. -/
def drain (w : Warehouses) (p : Pass StockEvent) : Warehouses where
  bus := w.bus.drain p
  nodes :=
    match (w.bus.bus.drain p).2 with
    | some c => w.nodes.modify c.handler fun r => r.handle c.index c.event
    | none => w.nodes

/-- The pass goes on, if one is under way. -/
def go (w : Warehouses) : Option Warehouses := w.bus.bus.draining.map w.drain

/-- An action, if it can happen now: others act only while no synchronous stretch is under way. -/
def step (w : Warehouses) : WarehouseAction → Option Warehouses
  | .create nodeId => if w.bus.bus.idle then some (w.create nodeId) else none
  | .emitStockChange sku delta => if w.bus.bus.idle then some (w.emitStockChange sku delta) else none
  | .disconnect node => if w.bus.bus.idle then some (w.disconnect node) else none
  | .reconnect node => if w.bus.bus.idle then some (w.reconnect node) else none
  | .go => w.go

/-- A run of actions; a sequence that cannot happen has none. -/
def run (w : Warehouses) (actions : List WarehouseAction) : Option Warehouses :=
  actions.foldlM step w

/-- No pass is under way, and every group has received the whole log. -/
def Delivered (w : Warehouses) : Prop :=
  w.bus.bus.draining = none ∧ ∀ key n, (splitKey key).1 = STOCK_EVENTS_TOPIC →
    w.bus.bus.groupCursors.get key = some n → n = w.log.length

/-- A node has applied every event of a log exactly once, and has the stock that the log adds up to. -/
def AppliedOnce (r : Replica) (log : List StockEvent) : Prop :=
  (∀ i, r.applied.count i = if i < log.length then 1 else 0) ∧
    ∀ sku, r.node.get sku = total sku log

/-- `emitStockChange`, awaited: the pass that it starts runs to its end. -/
def emitAwaited (w : Warehouses) (sku : Sku) (delta : Int) : Warehouses :=
  let w := w.emitStockChange sku delta
  settle go w.bus.bus.passBound w

end Warehouses

/-! ## Operations one after the other -/

/-- An operation that is awaited before the next. -/
inductive WarehouseOp where
  /-- `await emitStockChange(..)` -/
  | emit (sku : Sku) (delta : Int)
  /-- `disconnect` of a node. -/
  | disconnect (node : Nat)
  /-- `reconnect` of a node. -/
  | reconnect (node : Nat)

/-- An operation, to its end. -/
def Warehouses.perform (w : Warehouses) : WarehouseOp → Warehouses
  | .emit sku delta => w.emitAwaited sku delta
  | .disconnect node => w.disconnect node
  | .reconnect node => w.reconnect node

/-- The nodes that are created before the first stock event. -/
def Warehouses.start (nodeIds : List String) : Warehouses := nodeIds.foldl create empty

/-- What the nodes are for: a log, of which each node shows all, or what it was when the node was
disconnected. -/
structure StockLog where
  /-- The stock events so far. -/
  log : List StockEvent
  /-- The log when a node was disconnected; nothing for a connected node. -/
  frozen : Nat → Option (List StockEvent)

namespace StockLog

/-- No event yet, and every node connected. -/
def start : StockLog := ⟨[], fun _ => none⟩

/-- What an operation does to the log, and to what a node shows. -/
def perform (s : StockLog) : WarehouseOp → StockLog
  | .emit sku delta => { s with log := s.log ++ [⟨sku, delta⟩] }
  | .disconnect node =>
    { s with frozen := fun n => if n = node then some ((s.frozen n).getD s.log) else s.frozen n }
  | .reconnect node => { s with frozen := fun n => if n = node then none else s.frozen n }

/-- What a node shows. -/
def view (s : StockLog) (node : Nat) : List StockEvent := (s.frozen node).getD s.log

end StockLog

end SupplyChain
