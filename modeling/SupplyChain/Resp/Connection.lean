import SupplyChain.Resp.AnyBytes

/-!
# The connection of a client

The constructor of `RawRespClient`, `failAllPending` and `send`: the promise that the socket has connected,
the calls that wait for it, and what the socket's events do to the calls. A socket that has closed emits
nothing more and ignores what is written to it; `quit` is a call like any other, after whose reply the
socket is ended.
-/

namespace SupplyChain

namespace AnyBytes

/-- The promise `ready`. -/
inductive Ready where
  /-- The socket has not connected. -/
  | pending
  /-- It has. -/
  | resolved
  /-- It failed before it did. -/
  | rejected (message : List Char)

namespace Ready

/-- A promise that is settled stays as it is. -/
def resolve : Ready → Ready
  | pending => resolved
  | ready => ready

/-- `reject(err)` -/
def reject (message : List Char) : Ready → Ready
  | pending => rejected message
  | ready => ready

end Ready

/-- A call of `send`, by its number, before it has written its command. -/
structure Waiting where
  /-- The number of the call. -/
  call : Nat
  /-- What it will write. -/
  args : List (List Char)

/-- A client and its socket. The `n`-th call of `send` has promise `n`. -/
structure Connection where
  /-- The promise that the socket has connected. -/
  ready : Ready
  /-- The socket has closed. -/
  closed : Bool
  /-- How many calls of `send` there have been. -/
  calls : Nat
  /-- The calls between their `await` and their write. -/
  waiting : List Waiting
  /-- The client, with the calls that have written their command. -/
  client : RawRespClient
  /-- What was written to the socket. -/
  written : List UInt8

namespace RawRespClient

/-- `failAllPending` -/
def failAllPending (c : RawRespClient) (message : List Char) : RawRespClient :=
  { c with pending := [], settled := c.settled ++ c.pending.map fun call => (call, .rejected message) }

end RawRespClient

namespace Connection

/-- A client whose socket is about to connect. -/
def new : Connection := ⟨.pending, false, 0, [], ⟨⟨[], Nat.zero_le _⟩, [], []⟩, []⟩

/-- `send`, up to its `await`. -/
def send (c : Connection) (args : List (List Char)) : Connection :=
  { c with calls := c.calls + 1, waiting := c.waiting ++ [⟨c.calls, args⟩] }

/-- `this.pending.push({ resolve, reject }); this.socket.write(encoded)` -/
def write (c : Connection) (before : List Waiting) (w : Waiting) (after : List Waiting) : Connection :=
  { c with
    waiting := before ++ after
    client := { c.client with pending := c.client.pending ++ [w.call] }
    written := if c.closed then c.written else c.written ++ encodeCommand w.args }

/-- The `await` throws. -/
def refuse (c : Connection) (before : List Waiting) (w : Waiting) (after : List Waiting)
    (message : List Char) : Connection :=
  { c with
    waiting := before ++ after
    client := { c.client with settled := c.client.settled ++ [(w.call, .rejected message)] } }

/-- The listener of `connect`. -/
def onConnect (c : Connection) : Connection := { c with ready := c.ready.resolve }

/-- The listener of `error`. -/
def onError (c : Connection) (message : List Char) : Connection :=
  { c with ready := c.ready.reject message, client := c.client.failAllPending message }

/-- The listener of `close`. -/
def onClose (c : Connection) : Connection :=
  { c with closed := true, client := c.client.failAllPending "Redis connection closed".toList }

end Connection

/-- What can happen to a connection. -/
inductive ConnectionEvent where
  /-- `send` is called. -/
  | send (args : List (List Char))
  /-- A call goes on after its `await` and writes its command. -/
  | write (call : Nat)
  /-- A call goes on after its `await` and throws. -/
  | refuse (call : Nat)
  /-- The socket emits `connect`. -/
  | connect
  /-- It emits `data`. -/
  | data (chunk : Buffer)
  /-- It emits `error`. -/
  | error (message : List Char)
  /-- It emits `close`. -/
  | close

/-- What can happen next: a call whenever `ready` is settled, in any order, and the events of a socket that
has not closed. Data comes in if `onData` ends, and does not throw out of the listener. -/
inductive Connection.Step (c : Connection) : ConnectionEvent → Connection → Prop where
  /-- `send` may be called at any time. -/
  | send (args : List (List Char)) : Step c (.send args) (c.send args)
  /-- A call goes on once the socket has connected, even if it has closed since. -/
  | write {before after : List Waiting} {w : Waiting} (hready : c.ready = .resolved)
    (hwaiting : c.waiting = before ++ w :: after) : Step c (.write w.call) (c.write before w after)
  /-- A call throws if the socket failed before it connected. -/
  | refuse {before after : List Waiting} {w : Waiting} {message : List Char}
    (hready : c.ready = .rejected message) (hwaiting : c.waiting = before ++ w :: after) :
    Step c (.refuse w.call) (c.refuse before w after message)
  /-- The socket connects. -/
  | connect (hopen : c.closed = false) : Step c .connect c.onConnect
  /-- A chunk comes in. -/
  | data {fuel : Nat} {chunk : Buffer} {client : RawRespClient} (hopen : c.closed = false)
    (hdata : c.client.onData fuel chunk = some (.returns client)) :
    Step c (.data chunk) { c with client }
  /-- The socket fails. -/
  | error (hopen : c.closed = false) (message : List Char) : Step c (.error message) (c.onError message)
  /-- The socket closes, and emits nothing after. -/
  | close (hopen : c.closed = false) : Step c .close c.onClose

/-- A connection after some events. -/
inductive Connection.Run : List ConnectionEvent → Connection → Prop where
  /-- A new client. -/
  | start : Run [] new
  /-- One event more. -/
  | step {events : List ConnectionEvent} {event : ConnectionEvent} {c c' : Connection} (hrun : Run events c)
    (hstep : c.Step event c') : Run (events ++ [event]) c'

/-- Some call has written its command after the socket had closed. -/
def WritesAfterClose (events : List ConnectionEvent) : Prop :=
  ∃ before after call, events = before ++ .close :: after ∧ .write call ∈ after

/-- Every call is settled at most once, and nobody is left on a closed socket. -/
structure Connection.NobodyStranded (c : Connection) : Prop where
  /-- No promise is settled twice. -/
  settled_once : (c.client.settled.map Prod.fst).Nodup
  /-- Once the socket has closed and every call has gone on, none waits for a reply. -/
  pending_nil : c.closed = true → c.waiting = [] → c.client.pending = []

end AnyBytes

end SupplyChain
