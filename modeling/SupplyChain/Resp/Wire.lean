import SupplyChain.Resp.RawRespClient
import Mathlib.Logic.Function.Basic

/-!
# Clients and a server over a wire

Any number of clients, each with a connection of its own to one server. The bytes of both directions come in
pieces of any size. How the server reads commands is left open, as long as it reads those that are framed as the
protocol says; it executes one command at a time, of whichever connection.
-/

namespace SupplyChain

open Resp

/-! ## A server -/

/-- How a server finds the commands in what comes in on a connection. -/
structure CommandReader where
  /-- The command at the front, if it has come in in full, and what follows it. -/
  read : List UInt8 → Option (List (List UInt8) × List UInt8)
  /-- More bytes do not change what has been read. -/
  read_append {buf rest : List UInt8} {args : List (List UInt8)} (more : List UInt8) :
    read buf = some (args, rest) → read (buf ++ more) = some (args, rest ++ more)
  /-- A command is read as the protocol frames it. -/
  read_encodeCommand (args : List (List Char)) (rest : List UInt8) :
    read (encodeCommand args ++ rest) = some (args.map Utf8.encode, rest)

/-- What a server does with a command, and by itself as time passes. -/
structure RespServer (σ : Type) extends CommandReader where
  /-- What a command does, and its reply. -/
  execute : List (List UInt8) → σ → σ × Reply
  /-- What some milliseconds do. -/
  elapse : Nat → σ → σ
  /-- Every reply is one that the protocol allows. -/
  wellFormed : ∀ args s, (execute args s).2.WellFormed

/-- What has happened at a server. -/
inductive ServerEvent (ι : Type) where
  /-- A command of a connection is executed. -/
  | command (connection : ι) (args : List (List UInt8))
  /-- Time passes. -/
  | elapse (ms : Nat)

namespace RespServer

variable {ι σ : Type} (server : RespServer σ)

/-- What an event does to the state. -/
def apply (s : σ) : ServerEvent ι → σ
  | .command _ args => (server.execute args s).1
  | .elapse ms => server.elapse ms s

/-- The state after some events. -/
def after (s : σ) (log : List (ServerEvent ι)) : σ := log.foldl server.apply s

/-- The replies to the commands of a connection. -/
def replies [DecidableEq ι] (i : ι) : σ → List (ServerEvent ι) → List Reply
  | _, [] => []
  | s, event :: log =>
    match event with
    | .command j args =>
      if j = i then (server.execute args s).2 :: replies i (server.apply s event) log
      else replies i (server.apply s event) log
    | .elapse _ => replies i (server.apply s event) log

end RespServer

/-- The commands of a connection. -/
def ServerEvent.commandsOf {ι : Type} [DecidableEq ι] (i : ι) (log : List (ServerEvent ι)) :
    List (List (List UInt8)) :=
  log.filterMap fun
    | .command j args => if j = i then some args else none
    | .elapse _ => none

/-! ## The wire -/

/-- The clients, the server, and what is between them. -/
structure Wire (ι σ : Type) where
  /-- The state of the server. -/
  store : σ
  /-- The client of each connection. -/
  client : ι → RawRespClient
  /-- The bytes on their way to the server. -/
  toServer : ι → List UInt8
  /-- The bytes that have come to the server and are not read yet. -/
  inbox : ι → List UInt8
  /-- The bytes on their way to the client. -/
  toClient : ι → List UInt8
  /-- What has happened at the server. -/
  log : List (ServerEvent ι)

/-- What can happen next. -/
inductive WireAction (ι : Type) where
  /-- A call of `send` writes its command. -/
  | send (i : ι) (args : List (List Char))
  /-- Some bytes come to the server. -/
  | carry (i : ι) (n : Nat)
  /-- The server executes the next command of a connection. -/
  | execute (i : ι)
  /-- Some bytes come to the client. -/
  | deliver (i : ι) (n : Nat)
  /-- Time passes at the server. -/
  | elapse (ms : Nat)

namespace Wire

variable {ι σ : Type} [DecidableEq ι] (server : RespServer σ)

/-- Every client has connected, and nothing is sent. -/
def start (s : σ) : Wire ι σ := ⟨s, fun _ => .connected, fun _ => [], fun _ => [], fun _ => [], []⟩

open Function (update) in
/-- An action, if it can happen now. -/
def step (w : Wire ι σ) : WireAction ι → Option (Wire ι σ)
  | .send i args =>
    some { w with
      client := update w.client i ((w.client i).send args)
      toServer := update w.toServer i (w.toServer i ++ encodeCommand args) }
  | .carry i n =>
    some { w with
      toServer := update w.toServer i ((w.toServer i).drop n)
      inbox := update w.inbox i (w.inbox i ++ (w.toServer i).take n) }
  | .execute i =>
    (server.read (w.inbox i)).map fun (args, rest) =>
      let (store, reply) := server.execute args w.store
      { w with
        store
        inbox := update w.inbox i rest
        toClient := update w.toClient i (w.toClient i ++ reply.encode)
        log := w.log ++ [.command i args] }
  | .deliver i n =>
    ((w.client i).onData ((w.toClient i).take n)).map fun client =>
      { w with
        client := update w.client i client
        toClient := update w.toClient i ((w.toClient i).drop n) }
  | .elapse ms => some { w with store := server.elapse ms w.store, log := w.log ++ [.elapse ms] }

/-- A run of actions; a sequence that cannot happen has none. -/
def run (w : Wire ι σ) (actions : List (WireAction ι)) : Option (Wire ι σ) := actions.foldlM (step server) w

/-- Nothing is left to do for a connection. -/
structure Quiet (server : RespServer σ) (w : Wire ι σ) (i : ι) : Prop where
  /-- Nothing is on its way to the server. -/
  toServer : w.toServer i = []
  /-- No command is left to execute. -/
  inbox : server.read (w.inbox i) = none
  /-- Nothing is on its way to the client. -/
  toClient : w.toClient i = []

end Wire

/-- The commands that a client has sent. -/
def WireAction.sentBy {ι : Type} [DecidableEq ι] (i : ι) (actions : List (WireAction ι)) :
    List (List (List Char)) :=
  actions.filterMap fun
    | .send j args => if j = i then some args else none
    | _ => none

/-! ## A reader -/

/-- The number that a line of digits says. -/
def lengthOf (line : List Char) : Option Nat :=
  if line ≠ [] ∧ line.all Char.isDigit then some (Nat.ofDigitChars 10 line 0) else none

/-- The length that a header line says, and what follows the line. -/
def readLength (type : Char) : List UInt8 → Option (Nat × List UInt8)
  | [] => none
  | b :: rest =>
    if b = type.toUInt8 then
      (findCRLF rest).bind fun n =>
        (lengthOf (Utf8.decode (rest.take n))).map fun len => (len, rest.drop (n + 2))
    else none

/-- Bulk strings one after the other, and what follows them. -/
def readArgs : Nat → List UInt8 → Option (List (List UInt8) × List UInt8)
  | 0, buf => some ([], buf)
  | count + 1, buf =>
    (readLength '$' buf).bind fun (len, rest) =>
      if rest.length < len + 2 then none
      else (readArgs count (rest.drop (len + 2))).map fun (args, rest') => (rest.take len :: args, rest')

/-- A reader that takes the lengths at their word. -/
def readCommand (buf : List UInt8) : Option (List (List UInt8) × List UInt8) :=
  (readLength '*' buf).bind fun (count, rest) => readArgs count rest

end SupplyChain
