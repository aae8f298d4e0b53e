import SupplyChain.Events.FailingHandlers
import SupplyChain.Orders.PublishedLog

/-!
# Orders being taken

Calls of `createOrder` over one store and one `InMemoryEventBus`. The store's write may reject, and so may
the publication of `order.created`: if it has started a pass it waits for the end of the pass, and rejects
if a handler throws.
-/

namespace SupplyChain

open Async SagaOrchestrator

/-- The consumer group that `wireAsyncSagaExecution` subscribes. -/
def CONSUMER_GROUP : String := "saga-runner"

/-- What `createOrder` rejects with. -/
inductive CreateError where
  /-- The store's write has rejected, having taken effect or not: the reply to a `COMMIT` may be lost. -/
  | store (landed : Bool)
  /-- A handler has thrown in the pass that the publication had started. -/
  | handler
  deriving DecidableEq

/-- Where a call of `createOrder` is. -/
inductive Creation where
  /-- It goes on by itself. -/
  | running (rest : Saga OrderId)
  /-- The publication awaits the end of the pass that it has started. -/
  | draining (rest : Saga OrderId)
  /-- It has thrown. -/
  | rejected (e : CreateError)

/-- What it has thrown. -/
def Creation.error? : Creation → Option CreateError
  | .rejected e => some e
  | _ => none

/-- The calls `ι` of `createOrder` and what they share. -/
structure Intake (ι H : Type) where
  /-- What the calls share, apart from the bus. -/
  world : World
  /-- The bus. -/
  bus : ObservedBus DomainEvent H
  /-- Where each call is. -/
  creation : ι → Creation
  /-- The id that the call has drawn. -/
  order : ι → Option OrderId
  /-- The call whose publication has started the pass that is under way. -/
  starter : Option ι

/-- What can happen next. -/
inductive IntakeAction (ι H : Type) where
  /-- The store's write, and how it ends. -/
  | create (i : ι) (error : Option Bool)
  /-- `order.created` is published, up to where the publication waits. -/
  | publish (i : ι)
  /-- A transition of a stored order. -/
  | updateStatus (id : OrderId) (status : OrderStatus) (event : OrderEvent)
  /-- Time passes. -/
  | elapse (ms : Nat)
  /-- The bus goes on, or somebody else uses it. -/
  | act (a : FallibleAction DomainEvent H)

/-- Only `createOrder` publishes `order.created`. -/
def FallibleAction.createsOrder {H : Type} : FallibleAction DomainEvent H → Bool
  | .act (.publish _ event) => event.type = .created
  | _ => false

namespace Intake

variable {ι H : Type} [DecidableEq ι]

/-- The first awaited call of `createOrder`. -/
def create (s : Intake ι H) (i : ι) (error : Option Bool) : Option (Intake ι H) :=
  match s.creation i with
  | .running (.call (.create customerId lines amountCents businessId) k) =>
    let id := s.world.uuids.draw s.world.drawn
    let (stored, _) := participate (.create customerId lines amountCents businessId) s.world
    let world := if error = some false then { s.world with drawn := s.world.drawn + 1 } else stored
    let next := match error with
      | none => .running (k id)
      | some landed => .rejected (.store landed)
    some { s with
      world
      order := Function.update s.order i (some id)
      creation := Function.update s.creation i next }
  | _ => none

/-- The second awaited call of `createOrder`, up to where it waits. -/
def publish (s : Intake ι H) (i : ι) : Option (Intake ι H) :=
  match s.creation i with
  | .running (.call (.publish id type payload) k) =>
    if s.bus.bus.idle then
      let event : DomainEvent :=
        { type, orderId := id, payload, «at» := s.world.clock, key := id }
      let bus := s.bus.publish ORDERS_TOPIC event
      match s.bus.bus.draining with
      | none => some { s with
          bus, creation := Function.update s.creation i (.draining (k ())), starter := some i }
      | some _ => some { s with bus, creation := Function.update s.creation i (.running (k ())) }
    else none
  | _ => none

/-- How the call goes on that has awaited the pass. -/
def Creation.settled (a : FallibleAction DomainEvent H) : Creation → Creation
  | .draining rest =>
    match a with
    | .throws _ => .rejected .handler
    | .act _ => .running rest
  | c => c

/-- The bus goes on, and at the end of a pass the publication that had started it settles. -/
def act (s : Intake ι H) (a : FallibleAction DomainEvent H) : Option (Intake ι H) :=
  if a.createsOrder then none
  else (s.bus.attempt a).map fun bus =>
    match bus.bus.draining, s.starter with
    | none, some i => { s with
        bus, creation := Function.update s.creation i (Creation.settled a (s.creation i)), starter := none }
    | _, _ => { s with bus }

/-- An action, if it can happen now. -/
def step (s : Intake ι H) : IntakeAction ι H → Option (Intake ι H)
  | .create i error => s.create i error
  | .publish i => s.publish i
  | .updateStatus id status event =>
    (s.world.store.updateStatus id status event).map fun store => { s with world := { s.world with store } }
  | .elapse ms => some { s with world := { s.world with clock := s.world.clock + ms } }
  | .act a => s.act a

/-- A run of actions; a sequence that cannot happen has none. -/
def run (s : Intake ι H) (actions : List (IntakeAction ι H)) : Option (Intake ι H) :=
  actions.foldlM step s

/-- Every request is about to be handled, and nobody has used the bus. -/
def opened (world : World) (requests : ι → OrderRequest) : Intake ι H where
  world := world
  bus := .empty
  creation i := .running (createOrder (requests i).customerId (requests i).lines (requests i).amountCents
    (requests i).businessId)
  order _ := none
  starter := none

/-- `order.created` of the order is in a log. -/
def Announced (s : Intake ι H) (id : OrderId) : Prop :=
  ∃ topic, ∃ e ∈ s.bus.bus.topics topic, e.type = .created ∧ e.orderId = id

/-- The saga runner has started the saga of the order. -/
def SagaStarted (s : Intake ι H) (id : OrderId) : Prop :=
  ∃ c ∈ s.bus.calls, c.key = groupKey ORDERS_TOPIC CONSUMER_GROUP ∧
    (sagaRunner c.event).isSome = true ∧ c.event.orderId = id

end Intake

end SupplyChain
