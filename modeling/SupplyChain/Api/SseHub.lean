import SupplyChain.Events.EventBus
import SupplyChain.Orders.PublishedLog

/-!
# `SseHub`

The hub of `sseHub.ts` on the bus that `createOrder` and the transitions of the saga publish on, and the
route of the stream in `server.ts`, which hands every response to the hub. The session of the request is
not read. No response throws when it is written to, and no other handler throws, so that every pass comes to
its end.
-/

namespace SupplyChain

open SagaOrchestrator

/-- What is written to a response. -/
inductive SseMessage where
  /-- The status and the headers. -/
  | head
  /-- `: connected` -/
  | connected
  /-- `data:` and the JSON text of the event. -/
  | data (event : DomainEvent)
  deriving DecidableEq

/-- A response to `GET /api/events/stream`. -/
abbrev Client := Nat

/-- The responses that are open, and what has been written to each. -/
structure SseHub where
  /-- The open ones, in the order in which they were added. -/
  clients : List Client
  /-- What was written to each, the oldest first. -/
  written : Client → List SseMessage

namespace SseHub

/-- A hub without clients. -/
def opened : SseHub := ⟨[], fun _ => []⟩

/-- `addClient`: the head is written at once, and the response is in the set from then on. -/
def addClient (hub : SseHub) (res : Client) : SseHub where
  clients := if res ∈ hub.clients then hub.clients else hub.clients ++ [res]
  written c := if c = res then hub.written c ++ [.head, .connected] else hub.written c

/-- The `close` event of a response. -/
def close (hub : SseHub) (res : Client) : SseHub :=
  { hub with clients := hub.clients.filter (· ≠ res) }

/-- `broadcast`: the event is written to every client, whatever business it is of. -/
def broadcast (hub : SseHub) (event : DomainEvent) : SseHub :=
  { hub with
    written c := if c ∈ hub.clients then hub.written c ++ [.data event] else hub.written c }

end SseHub

/-- A handler that is subscribed to `orders`. None of them throws. -/
inductive Listener where
  /-- `this.broadcast(event)`, of the hub. -/
  | sseHub
  /-- A handler of another group. -/
  | other
  deriving DecidableEq

/-- The part of a server that publishes orders and streams their events. -/
structure StreamServer where
  /-- The time at which events are dated. -/
  clock : Nat
  /-- The bus. -/
  bus : InMemoryEventBus DomainEvent Listener
  /-- The hub, once it is there. -/
  hub : Option SseHub

/-- What can happen next. -/
inductive StreamAction where
  /-- A call of `createOrder` has stored its order and publishes it. -/
  | createOrder (id : OrderId) (customerId : String) (lines : List OrderLine) (amountCents : Int)
  /-- The saga has stored a transition and publishes it. -/
  | transition (id : OrderId) (type : EventType) (detail : EventDetail)
  /-- Another group subscribes. -/
  | subscribe (groupId : String)
  /-- `new SseHub(eventBus)` -/
  | openHub
  /-- A request for the stream comes in. -/
  | addClient (res : Client)
  /-- A response is closed. -/
  | close (res : Client)
  /-- Time passes. -/
  | elapse (ms : Nat)
  /-- The delivery pass goes on. -/
  | go

namespace StreamServer

/-- A server that has just been started, and has no hub yet. -/
def started : StreamServer := ⟨0, .empty, none⟩

/-- `SagaOrchestrator.publish` -/
def publish (s : StreamServer) (id : OrderId) (type : EventType) (payload : EventDetail) : StreamServer :=
  { s with bus := s.bus.publish ORDERS_TOPIC { type, orderId := id, payload, «at» := s.clock, key := id } }

/-- The event that a call of the hub's handler passes on. -/
def broadcasts : HandlerCall DomainEvent Listener → Option DomainEvent
  | ⟨_, _, .sseHub, _, event⟩ => some event
  | _ => none

/-- The event with which the pass is about to call the hub's handler. -/
def offered (s : StreamServer) : Option DomainEvent :=
  s.bus.draining.bind fun p => (s.bus.drain p).2.bind broadcasts

/-- A step of the delivery pass, and what the hub writes if it is called. -/
def drain (s : StreamServer) (p : Pass DomainEvent) : StreamServer :=
  let (bus, call) := s.bus.drain p
  match call.bind broadcasts with
  | some event => { s with bus, hub := s.hub.map (·.broadcast event) }
  | none => { s with bus }

/-- One step, where `owner` says to which business an order belongs. -/
def step (owner : OrderId → Option String) (s : StreamServer) : StreamAction → Option StreamServer
  | .go => s.bus.draining.map s.drain
  | .elapse ms => some { s with clock := s.clock + ms }
  | .createOrder id customerId lines amountCents =>
    if s.bus.idle then
      let (type, payload) := OrderRequest.created ⟨customerId, lines, amountCents, owner id⟩
      some (s.publish id type payload)
    else none
  | .transition id type detail => if s.bus.idle then some (s.publish id type detail) else none
  | .subscribe groupId =>
    if s.bus.idle then some { s with bus := s.bus.subscribe ORDERS_TOPIC groupId .other } else none
  | .openHub =>
    if s.bus.idle ∧ s.hub.isNone then
      some { s with bus := s.bus.subscribe ORDERS_TOPIC "sse-hub" .sseHub, hub := some .opened }
    else none
  | .addClient res => if s.bus.idle then s.hub.map fun hub => { s with hub := some (hub.addClient res) } else none
  | .close res => if s.bus.idle then s.hub.map fun hub => { s with hub := some (hub.close res) } else none

/-- A run of actions; a sequence that cannot happen has none. -/
def run (owner : OrderId → Option String) (s : StreamServer) (actions : List StreamAction) :
    Option StreamServer :=
  actions.foldlM (step owner) s

/-- What has been written to a response. -/
def written (s : StreamServer) (res : Client) : List SseMessage :=
  (s.hub.map (·.written res)).getD []

/-- The response is among the hub's clients. -/
def Connected (s : StreamServer) (res : Client) : Prop := s.hub.any (res ∈ ·.clients) = true

instance (s : StreamServer) (res : Client) : Decidable (s.Connected res) :=
  inferInstanceAs (Decidable (_ = true))

end StreamServer

namespace StreamAction

/-- The order that the action is about. -/
def order? : StreamAction → Option OrderId
  | .createOrder id _ _ _ | .transition id _ _ => some id
  | _ => none

/-- Two actions that differ only in what they say of an order of another business than `b`, and in its
id, which `rename` replaces. -/
inductive Alike (owner : OrderId → Option String) (b : Option String) (rename : OrderId → OrderId) :
    StreamAction → StreamAction → Prop where
  /-- An action that says nothing of such an order. -/
  | same {a : StreamAction} (h : ∀ id, a.order? = some id → owner id = b) : Alike owner b rename a a
  /-- The creation of such an order, whatever is ordered. -/
  | createOrder {id : OrderId} (h : owner id ≠ b) (customerId customerId' : String)
      (lines lines' : List OrderLine) (amountCents amountCents' : Int) :
    Alike owner b rename (.createOrder id customerId lines amountCents)
      (.createOrder (rename id) customerId' lines' amountCents')
  /-- A transition of such an order, to the same status, with any detail. -/
  | transition {id : OrderId} (h : owner id ≠ b) (type : EventType) (detail detail' : EventDetail) :
    Alike owner b rename (.transition id type detail) (.transition (rename id) type detail')

end StreamAction

/-- The orders of a second run: those of `b` are the same, and the others may have other ids. -/
structure Renaming (owner owner' : OrderId → Option String) (b : Option String)
    (rename : OrderId → OrderId) : Prop where
  /-- No two orders get one id. -/
  injective : Function.Injective rename
  /-- Each keeps its owner. -/
  owned : ∀ id, owner' (rename id) = owner id
  /-- Those of `b` keep their ids. -/
  own : ∀ id, owner id = b → rename id = id

end SupplyChain
