import SupplyChain.Collections.InsertionMap

/-!
# `InMemoryEventBus`

The in-memory bus of `eventBus.ts`, as a machine of micro-steps. A delivery pass is synchronous except
where it awaits a handler, and only there others may publish and subscribe. A handler that publishes or
subscribes does so while it is awaited. Handlers do not throw, and `close` is left out.
-/

namespace SupplyChain

open Collections

/-- `` `${topic}:${groupId}` `` -/
def groupKey (topic groupId : String) : String := topic ++ ":" ++ groupId

/-- `splitKey`: the parts before and after the first colon. -/
def splitKey (key : String) : String × String :=
  let cs := key.toList
  if ':' ∈ cs then
    (String.ofList (cs.takeWhile (· ≠ ':')), String.ofList ((cs.dropWhile (· ≠ ':')).drop 1))
  else (String.ofList cs.dropLast, key)

/-- What the body of the `for` loop of `drain` holds: the event it hands to the handlers of a group. -/
structure Delivery (E : Type) where
  /-- The key of the group. -/
  key : String
  /-- The cursor of the group when the event was taken. -/
  cursor : Nat
  /-- The event in hand. -/
  event : E
  /-- How many handlers of the group have been called. The pass is suspended after each call. -/
  called : Nat

/-- What a delivery pass holds. -/
structure Pass (E : Type) where
  /-- The topic whose subscribers are gone through. -/
  topic : String
  /-- The position of the iteration over `groupCursors`. -/
  pos : Nat
  /-- Whether this round has handed over an event. -/
  madeProgress : Bool
  /-- The event being handed over, between two entries of `groupCursors`. -/
  delivery : Option (Delivery E)

/-- A pass that awaits a handler. -/
def Pass.suspended {E : Type} (p : Pass E) : Bool := p.delivery.any fun d => 0 < d.called

/-- The bus, for events of type `E` and handlers of type `H`. The flag `draining` is kept with the pass
that has set it. -/
structure InMemoryEventBus (E H : Type) where
  /-- The log of each topic. -/
  topics : String → List E
  /-- How far each group has acknowledged its topic. -/
  groupCursors : InsertionMap String Nat
  /-- The handlers of each group, in the order in which they subscribed. -/
  groupHandlers : String → List H
  /-- The pass under way. A second one never starts, whatever its topic. -/
  draining : Option (Pass E)

/-- A call of a handler: the one at `position` among the handlers of the group `key`, with the event at
`index` in the log of its topic. -/
structure HandlerCall (E H : Type) where
  /-- The key of the group. -/
  key : String
  /-- The handler's place in its group. -/
  position : Nat
  handler : H
  /-- The event's place in the log of its topic. -/
  index : Nat
  event : E

namespace InMemoryEventBus

variable {E H : Type}

/-- A bus on which nothing has happened. -/
def empty : InMemoryEventBus E H := ⟨fun _ => [], .empty, fun _ => [], none⟩

/-- `history`: the log of the topic. -/
def history (bus : InMemoryEventBus E H) (topic : String) : List E := bus.topics topic

/-- Whether no synchronous stretch of a pass is under way. -/
def idle (bus : InMemoryEventBus E H) : Bool := bus.draining.all Pass.suspended

/-- `publish`, up to where it awaits the end of the pass that it has started, if it has started one. -/
def publish (bus : InMemoryEventBus E H) (topic : String) (event : E) : InMemoryEventBus E H :=
  let topics t := if t = topic then bus.topics topic ++ [event] else bus.topics t
  match bus.draining with
  | some _ => { bus with topics }
  | none => { bus with topics, draining := some ⟨topic, 0, false, none⟩ }

/-- `subscribe`: a group that is there keeps its cursor, a new one starts at the beginning of the log. -/
def subscribe (bus : InMemoryEventBus E H) (topic groupId : String) (handler : H) :
    InMemoryEventBus E H :=
  let key := groupKey topic groupId
  { bus with
    groupHandlers k :=
      if k = key then bus.groupHandlers key ++ [handler] else bus.groupHandlers k
    groupCursors :=
      if (bus.groupCursors.get key).isSome then bus.groupCursors else bus.groupCursors.set key 0 }

/-- One step of the pass `p`, a handler being called or not. -/
def drain (bus : InMemoryEventBus E H) (p : Pass E) :
    InMemoryEventBus E H × Option (HandlerCall E H) :=
  match p.delivery with
  | some d =>
    match (bus.groupHandlers d.key)[d.called]? with
    | some h =>
      -- the next handler is called, and awaited
      ({ bus with draining := some { p with delivery := some { d with called := d.called + 1 } } },
        some ⟨d.key, d.called, h, d.cursor, d.event⟩)
    | none =>
      ({ bus with
        groupCursors := bus.groupCursors.set d.key (d.cursor + 1)
        draining := some { p with pos := p.pos + 1, madeProgress := true, delivery := none } }, none)
  | none =>
    match bus.groupCursors.entries[p.pos]? with
    | none =>
      -- the end of the iteration: another round, or the end of the pass
      if p.madeProgress then
        ({ bus with draining := some { p with pos := 0, madeProgress := false } }, none)
      else ({ bus with draining := none }, none)
    | some (key, cursor) =>
      if (splitKey key).1 ≠ p.topic then
        ({ bus with draining := some { p with pos := p.pos + 1 } }, none)
      else
        match (bus.topics p.topic)[cursor]? with
        | none => ({ bus with draining := some { p with pos := p.pos + 1 } }, none)
        | some event =>
          ({ bus with draining := some { p with delivery := some ⟨key, cursor, event, 0⟩ } }, none)

/-- How many events a pass over the topic has still to hand over, counted once for each group. -/
def owed (bus : InMemoryEventBus E H) (topic : String) : Nat :=
  (bus.groupCursors.entries.map fun e =>
    if (splitKey e.1).1 = topic then (bus.topics topic).length - e.2 else 0).sum

/-- How many handlers are subscribed, over all groups. -/
def handlerCount (bus : InMemoryEventBus E H) : Nat :=
  (bus.groupCursors.entries.map fun e => (bus.groupHandlers e.1).length).sum

/-- A bound on the number of steps that are left of the pass, if nobody else acts. Each event that is
owed pays for a round and for the calls of the handlers. -/
def passBound (bus : InMemoryEventBus E H) : Nat :=
  let groups := bus.groupCursors.entries.length
  let cost := groups + bus.handlerCount + 3
  match bus.draining with
  | none => 0
  | some p =>
    match p.delivery with
    | none =>
      bus.owed p.topic * cost + (if p.madeProgress then groups + 1 else 0) + (groups - p.pos) + 1
    | some d =>
      (bus.owed p.topic - 1) * cost + (groups + 1) + (groups - p.pos) +
        ((bus.groupHandlers d.key).length - d.called) + 2

end InMemoryEventBus

/-! ## Runs -/

/-- What can happen next. -/
inductive BusAction (E H : Type) where
  /-- `publish`, up to where it awaits the pass. -/
  | publish (topic : String) (event : E)
  /-- `subscribe` -/
  | subscribe (topic groupId : String) (handler : H)
  /-- The pass goes on; a handler that it awaits has returned. -/
  | go

/-- A bus with what has been seen of it: the calls of handlers, and for each group the cursor at which
each of its handlers was subscribed. -/
structure ObservedBus (E H : Type) where
  bus : InMemoryEventBus E H
  /-- The calls of handlers so far. -/
  calls : List (HandlerCall E H)
  /-- The cursors at which the handlers of each group were subscribed. -/
  since : String → List Nat

namespace ObservedBus

variable {E H : Type}

/-- A bus on which nothing has happened or been seen. -/
def empty : ObservedBus E H := ⟨.empty, [], fun _ => []⟩

/-- `publish`, which calls no handler by itself. -/
def publish (o : ObservedBus E H) (topic : String) (event : E) : ObservedBus E H :=
  { o with bus := o.bus.publish topic event }

/-- `subscribe`, where the cursor of the group is noted for the handler. -/
def subscribe (o : ObservedBus E H) (topic groupId : String) (handler : H) : ObservedBus E H :=
  { o with
    bus := o.bus.subscribe topic groupId handler
    since key :=
      if key = groupKey topic groupId then o.since key ++ [(o.bus.groupCursors.get key).getD 0]
      else o.since key }

/-- One step of the pass, where the call that it makes is noted. -/
def drain (o : ObservedBus E H) (p : Pass E) : ObservedBus E H :=
  let (bus, call) := o.bus.drain p
  { o with bus, calls := o.calls ++ call.toList }

/-- An action, if it can happen now: others act only while no synchronous stretch is under way. -/
def step (o : ObservedBus E H) : BusAction E H → Option (ObservedBus E H)
  | .publish topic event => if o.bus.idle then some (o.publish topic event) else none
  | .subscribe topic groupId handler =>
    if o.bus.idle then some (o.subscribe topic groupId handler) else none
  | .go => o.bus.draining.map o.drain

/-- A run from an observed bus; a sequence of actions that cannot happen has none. -/
def run (o : ObservedBus E H) (actions : List (BusAction E H)) : Option (ObservedBus E H) :=
  actions.foldlM step o

/-- The events that the handler at `position` of the group `key` has been called with. -/
def handed (o : ObservedBus E H) (key : String) (position : Nat) : List E :=
  (o.calls.filter fun c => c.key = key ∧ c.position = position).map HandlerCall.event

/-- The event that a pass is handing to the group `key`, if the handler at `position` has been called
with it. -/
def inHand (o : ObservedBus E H) (key : String) (position : Nat) : Nat :=
  match o.bus.draining with
  | some ⟨_, _, _, some d⟩ => if d.key = key ∧ position < d.called then 1 else 0
  | _ => 0

/-- How far the group has come when its cursor is `n`: its first handler has read the log from the start
and each further one from where it was subscribed, up to the cursor and the event in hand. -/
def HandedOver (o : ObservedBus E H) (topic groupId : String) (n : Nat) : Prop :=
  let key := groupKey topic groupId
  (o.since key).length = (o.bus.groupHandlers key).length ∧ (o.since key)[0]? = some 0 ∧
    ∀ position since, (o.since key)[position]? = some since → o.handed key position =
      ((o.bus.history topic).take (n + o.inHand key position)).drop since

/-- The group has received the whole log of its topic: its first handler every event in order, and each
further handler all that came after its subscription. -/
def Received (o : ObservedBus E H) (topic groupId : String) : Prop :=
  let key := groupKey topic groupId
  o.handed key 0 = o.bus.history topic ∧
    ∀ position since, (o.since key)[position]? = some since →
      o.handed key position = (o.bus.history topic).drop since

end ObservedBus

namespace BusAction

variable {E H : Type}

/-- Whether something is published on the topic. -/
def isPublishOn (topic : String) : BusAction E H → Bool
  | .publish t _ => t = topic
  | _ => false

/-- The topic on which something is published. -/
def publishTopic? : BusAction E H → Option String
  | .publish t _ => some t
  | _ => none

end BusAction

end SupplyChain
