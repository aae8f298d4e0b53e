import SupplyChain.Orders.Terminal

/-!
# The audit trail of an order

The history of an order as a language of event types, and the executions that write it one after the
other: one run, stopped anywhere, then recoveries, each on a fresh read and stopped anywhere.
-/

namespace SupplyChain

open Async SagaOrchestrator

/-- The status that is stored together with an event. -/
def EventType.status : EventType → OrderStatus
  | .created => .CREATED
  | .inventoryReserved => .INVENTORY_RESERVED
  | .paymentCharged => .PAYMENT_CHARGED
  | .shippingScheduled => .SHIPPING_SCHEDULED
  | .confirmed => .CONFIRMED
  | .compensating => .COMPENSATING
  | .cancelled => .CANCELLED

/-- The status that belongs to the last entry of a history. -/
def lastStatus (types : List EventType) : OrderStatus :=
  (types.getLast?.map EventType.status).getD .CREATED

/-- The event types of the history. -/
def Order.types (order : Order) : List EventType := order.history.map OrderEvent.type

/-- The steps of a saga that goes well, up to its end. -/
def forwardTypes : List EventType := [.inventoryReserved, .paymentCharged, .shippingScheduled]

/-- How a trail goes on after the forward steps. -/
inductive Closing (forward : List EventType) : List EventType → Prop where
  /-- Nothing more yet. -/
  | open : Closing forward []
  /-- Confirmed, after all the steps. -/
  | confirmed (h : forward = forwardTypes) : Closing forward [.confirmed]
  /-- Some compensations that were started. -/
  | compensating (n : Nat) : Closing forward (List.replicate (n + 1) .compensating)
  /-- Some compensations that were started, the last of which has come to its end. -/
  | cancelled (n : Nat) : Closing forward (List.replicate (n + 1) .compensating ++ [.cancelled])

/-- The language of audit trails. -/
def AuditTrail (types : List EventType) : Prop :=
  ∃ forward closing, types = forward ++ closing ∧ forward <+: forwardTypes ∧ Closing forward closing

/-- The events that end a trail. -/
def EventType.ends : EventType → Bool
  | .confirmed | .cancelled => true
  | _ => false

/-- The steps that the saga can take from each status. -/
def OrderStatus.next : OrderStatus → EventType → Bool
  | .CREATED, .inventoryReserved => true
  | .INVENTORY_RESERVED, .paymentCharged => true
  | .PAYMENT_CHARGED, .shippingScheduled => true
  | .SHIPPING_SCHEDULED, .confirmed => true
  | .COMPENSATING, .cancelled => true
  | .CREATED, .compensating | .INVENTORY_RESERVED, .compensating | .PAYMENT_CHARGED, .compensating
  | .SHIPPING_SCHEDULED, .compensating | .COMPENSATING, .compensating => true
  | _, _ => false

/-- Executions that concern the order `id`, one at a time. An execution's auxiliary value is the status
that it has stored last, or that the order had when it started. Nobody else writes the order. -/
def solo (id : OrderId) : System participants Unit SagaError World OrderStatus where
  handle := participate
  note status c _ :=
    match c with
    | .updateStatus _ status' _ _ => status'
    | _ => status
  guard _ _ _ _ := True
  env w w' := w'.store.get id = w.store.get id

/-- An execution that starts when the order has the status `status`. -/
abbrev soloStart (w : World) (status : OrderStatus) (job : Job) :
    Pool participants Unit SagaError World OrderStatus Unit :=
  ⟨w, fun _ => status, fun _ => job.saga⟩

/-- The states that the order `id` passes through from the world `w`: in one run that is stopped
anywhere, and in recoveries that follow, each on a fresh read and stopped anywhere. -/
inductive Sequential (id : OrderId) (w : World) : World → Prop where
  /-- One run, from an order without a trail. -/
  | run {P} : (solo id).Reaches (soloStart w .CREATED (.run id)) P → Sequential id w P.state
  /-- One recovery more, of the order as it is. -/
  | recover {w' P} (status : OrderStatus) : Sequential id w w' →
    (w'.store.get id).map Order.status = some status →
    (solo id).Reaches (soloStart w' status (.recover id)) P → Sequential id w P.state

end SupplyChain
