import SupplyChain.Orders.Accounts

/-!
# The published log and the stored histories

Every order has two append-only logs: its stored history, and the events about it on the `orders` topic.
They are written one after the other by separate awaited calls. `World.published` is what `history` of the
bus returns for that topic; a call of `publish` appends to it before it awaits any handler.
-/

namespace SupplyChain

open Async SagaOrchestrator

/-- What both logs say of one event. -/
abbrev Report := EventType × EventDetail

/-- What a stored event says. -/
def OrderEvent.report (e : OrderEvent) : Report := (e.type, e.detail)

/-- What a published event says. -/
def DomainEvent.report (e : DomainEvent) : Report := (e.type, e.payload)

/-- What the history says. -/
def Order.reports (o : Order) : List Report := o.history.map OrderEvent.report

/-- The projection of a log to the events of one order. -/
def reportsOf (log : List DomainEvent) (id : OrderId) : List Report :=
  (log.filter fun e => e.key = id).map DomainEvent.report

/-- The arguments of `createOrder`. -/
structure OrderRequest where
  /-- `customerId` -/
  customerId : String
  /-- `lines` -/
  lines : List OrderLine
  /-- `amountCents` -/
  amountCents : Int
  /-- `businessId` -/
  businessId : Option String

namespace OrderRequest

/-- What `order.created` says. -/
def created (r : OrderRequest) : Report :=
  (.created,
    { customerId := some r.customerId, lines := some r.lines, amountCents := some r.amountCents,
      businessId := some r.businessId })

/-- `createOrder`, and the `run` of the order it has created. -/
def fulfil (r : OrderRequest) : Saga Order := do
  let id ← createOrder r.customerId r.lines r.amountCents r.businessId
  run id

end OrderRequest

/-- The first log is a prefix of the second that lacks at most its last entry. -/
def AtMostOneBehind (log full : List Report) : Prop := log = full ∨ ∃ x, full = log ++ [x]

/-- The call writes to one of the two logs. -/
def Call.writes : Call → Bool
  | .create .. | .updateStatus .. | .publish .. => true
  | _ => false

/-- What an execution has stored and published of its order. -/
structure Reports where
  /-- The order that it has created. -/
  order : Option OrderId := none
  /-- What it has stored. -/
  stored : List Report := []
  /-- What it has published. -/
  published : List Report := []

namespace Reports

/-- What it has stored and published after one more call. -/
def note (g : Reports) : (c : Call) → c.Reply → Reports
  | .create .., id => { g with order := some id }
  | .updateStatus _ _ type detail, _ => { g with stored := g.stored ++ [(type, detail)] }
  | .publish _ type payload, _ => { g with published := g.published ++ [(type, payload)] }
  | _, _ => g

/-- Everything that was stored of the order `id` has been published, after `first`. -/
structure Synced (g : Reports) (first : Report) (id : OrderId) : Prop where
  /-- It is the order that the execution has created. -/
  order : g.order = some id
  /-- Nothing is left to publish. -/
  published : g.published = first :: g.stored

end Reports

/-- Executions in any order. The stock, the providers and the source of ids may change in between. -/
def reporting (ι : Type) : System participants ι SagaError World Reports where
  handle := participate
  note := Reports.note
  guard _ _ _ _ := True
  env w w' := w'.store = w.store ∧ w'.published = w.published ∧ w'.uuids = w.uuids ∧ w.drawn ≤ w'.drawn

/-- What an execution promises: it creates one order, and publishes each transition after it stored it and
before it stores the next. -/
def reportContract (first : Report) : Contract participants SagaError Reports where
  pre g c :=
    match c with
    | .create .. => g = {}
    | .updateStatus id _ _ _ => g.Synced first id
    | .publish id type payload =>
      g.order = some id ∧ first :: g.stored = g.published ++ [(type, payload)]
    | _ => True
  ans _ c r :=
    match c, r with
    | .get id, some order => order.id = id
    | _, _ => True
  thrown _ _ := True

variable {ι : Type}

/-- Both logs of every order are as its own execution has written them. -/
structure ReportsInv (first : ι → Report) (w : World) (gs : ι → Reports) : Prop where
  /-- The ids of orders have been drawn. -/
  drawn : ∀ {i id}, (gs i).order = some id → ¬ Unused w.uuids w.drawn id
  /-- No two executions have one order. -/
  apart : ∀ {i j id}, (gs i).order = some id → (gs j).order = some id → i = j
  /-- The stored history is what the order's execution has stored. -/
  stored : ∀ {i id}, (gs i).order = some id →
    ∃ o, w.store.get id = some o ∧ o.reports = (gs i).stored
  /-- The published log has of it what its execution has published. -/
  published : ∀ {i id}, (gs i).order = some id → reportsOf w.published id = (gs i).published
  /-- Nothing is published about an order that is still to be created. -/
  fresh : ∀ {id}, Unused w.uuids w.drawn id → reportsOf w.published id = []
  /-- No execution is more than one event behind. -/
  behind : ∀ i, AtMostOneBehind (gs i).published (first i :: (gs i).stored)

end SupplyChain
