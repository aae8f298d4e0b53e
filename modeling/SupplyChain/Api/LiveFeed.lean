import SupplyChain.Api.JsonFormat
import SupplyChain.Api.SseHub
import SupplyChain.Text.EventStream

/-!
# The live feed

What a client of the hub receives as bytes, and the feed of the dashboard that reads them. The network cuts
the bytes into chunks as it likes; of the page only the events of the feed are kept. As in the hub, nothing
throws on the side of the server.
-/

namespace SupplyChain

open EventStream SagaOrchestrator

namespace SseHub

/-- The group of the hub. -/
def key : String := groupKey ORDERS_TOPIC "sse-hub"

/-- Whether the hub has been called with the event that a pass is handing to its group. -/
def heard (bus : InMemoryEventBus DomainEvent Listener) : Bool :=
  match bus.draining with
  | some ⟨_, _, _, some d⟩ => d.key = key ∧ (bus.groupHandlers key).idxOf .sseHub < d.called
  | _ => false

/-- How many events of the log the hub has gone past. -/
def passed (bus : InMemoryEventBus DomainEvent Listener) : Nat :=
  (bus.groupCursors.get key).getD 0 + (heard bus).toNat

end SseHub

/-- The events on `orders`. -/
def StreamServer.log (s : StreamServer) : List DomainEvent := s.bus.history ORDERS_TOPIC

variable {ν : Type} (format : Json.NumberFormat ν) (number : Int → ν)

/-- The headers are no part of the stream. -/
def SseMessage.frame : SseMessage → Option Frame
  | head => none
  | connected => some (.comment "connected".toList)
  | data event => some (.data (Json.stringify format (event.json number)))

/-- The bytes of the body of a response. -/
def streamBytes (written : List SseMessage) : List UInt8 :=
  (written.filterMap (SseMessage.frame format number)).flatMap Frame.bytes

/-- The feed of a dashboard, and the reader of its `EventSource`. -/
structure LiveFeed (ν : Type) where
  /-- The reader, between two bytes. -/
  reader : Reader
  /-- The newest first. -/
  feedEvents : List (Json ν)

/-- What happens to a dashboard. -/
inductive FeedAction where
  /-- Some bytes come in. -/
  | chunk (bytes : List UInt8)
  /-- A click on `feedClearBtn`. -/
  | clear

/-- The bytes that come in. -/
def FeedAction.bytes : FeedAction → List UInt8
  | chunk bytes => bytes
  | clear => []

namespace LiveFeed

/-- The page has been loaded. -/
def loaded : LiveFeed ν := ⟨.start, []⟩

/-- `source.onmessage`. A message that is no JSON is dropped, and for `null` reading `event.type` throws. -/
def onmessage (feedEvents : List (Json ν)) (msg : Message) : List (Json ν) :=
  if msg.type = "message".toList then
    match Json.parse format msg.data with
    | none | some .null => feedEvents
    | some event => (event :: feedEvents).take 200
  else feedEvents

/-- What happens to the feed, message by message. -/
def step (feed : LiveFeed ν) : FeedAction → LiveFeed ν
  | .chunk bytes =>
    let next := feed.reader.read bytes
    ⟨next.1, next.2.foldl (onmessage format) feed.feedEvents⟩
  | .clear => { feed with feedEvents := [] }

/-- The feed after some actions. -/
def run (feed : LiveFeed ν) (actions : List FeedAction) : LiveFeed ν := actions.foldl (step format) feed

end LiveFeed

end SupplyChain
