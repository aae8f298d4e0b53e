import SupplyChain.Resp.Reply
import Mathlib.Data.List.Infix

/-!
# The RESP client

`RawRespClient` of `redisClient.ts`: how commands are written, and how replies are read from a buffer
that grows as data arrives. The socket does not fail here, and strings, buffers and the call stack are as
large as they have to be.
-/

namespace SupplyChain

open Resp

/-- What an attempt to parse gives. -/
inductive Parsed (α : Type) where
  /-- More bytes are needed: `null`. -/
  | more
  /-- The value, and how many bytes were consumed. -/
  | parsed (value : α) (consumed : Nat)
  /-- The reply is of a type that the client does not know. -/
  | throws (message : List Char)
  /-- A bulk string whose length is no natural number. The source goes on with it; no server sends one. -/
  | malformed

/-- `buf.subarray(start, stop)` -/
def subarray (buf : List UInt8) (start stop : Nat) : List UInt8 := (buf.take stop).drop start

/-- Where the first CR and LF are. -/
def findCRLF : List UInt8 → Option Nat
  | [] => none
  | b :: rest => if b = CR ∧ rest.head? = some LF then some 0 else (findCRLF rest).map (· + 1)

/-- `buf.indexOf("\r\n", start)`. -/
def indexOfCRLF (buf : List UInt8) (start : Nat) : Option Nat :=
  (findCRLF (buf.drop start)).map (start + ·)

/-- The loop over the items of an array: the values, and the cursor at its end. -/
def parseItems (parse : Nat → Parsed Value) : Nat → Nat → List Value → Parsed (List Value)
  | 0, cursor, values => .parsed values cursor
  | count + 1, cursor, values =>
    match parse cursor with
    | .parsed value consumed => parseItems parse count (cursor + consumed) (values ++ [value])
    | .more => .more
    | .throws message => .throws message
    | .malformed => .malformed

/-- The `switch` of `tryParseReply`, over the line that ends before `start`. -/
def parseBody (parse : Nat → Parsed Value) (buf : List UInt8) (offset : Nat) (type : Char)
    (line : List Char) (start : Nat) : Parsed Value :=
  if type = '+' then .parsed (.text line) (start - offset)
  else if type = '-' then .parsed (.error line) (start - offset)
  else if type = ':' then .parsed (.number (Decimal.parseNumber line)) (start - offset)
  else if type = '$' then
    match Decimal.parseNumber line with
    | some (.ofNat len) =>
      if buf.length < start + len + 2 then .more
      else .parsed (.text (Utf8.decode (subarray buf start (start + len)))) (start + len + 2 - offset)
    | some (.negSucc 0) => .parsed .null (start - offset)
    | _ => .malformed
  else if type = '*' then
    match Decimal.parseNumber line with
    | some (.negSucc 0) => .parsed .null (start - offset)
    | count =>
      match parseItems parse (count.getD 0).toNat start [] with
      | .parsed values cursor => .parsed (.array values) (cursor - offset)
      | .more => .more
      | .throws message => .throws message
      | .malformed => .malformed
  else .throws ("Unsupported RESP type byte: ".toList ++ [type])

/-- `tryParseReply`. Arrays nest to the depth `fuel`, for which the length of the buffer is enough. -/
def tryParseReply : Nat → List UInt8 → Nat → Parsed Value
  | 0, _, _ => .more
  | fuel + 1, buf, offset =>
    match buf[offset]? with
    | none => .more
    | some type =>
      match indexOfCRLF buf (offset + 1) with
      | none => .more
      | some lineEnd =>
        parseBody (tryParseReply fuel buf) buf offset (Char.ofNat type.toNat)
          (Utf8.decode (subarray buf (offset + 1) lineEnd)) (lineEnd + 2)

/-- How the promise of a call is settled. -/
inductive Settlement where
  /-- With a value. -/
  | resolved (value : Value)
  /-- With an error. -/
  | rejected (message : List Char)

/-- A client, with the promises of its calls: the `n`-th call of `send` has promise `n`. -/
structure RawRespClient where
  /-- What has come in and is not consumed. -/
  buffer : List UInt8
  /-- The calls that wait for their replies, the oldest first. -/
  pending : List Nat
  /-- How many calls there have been. -/
  calls : Nat
  /-- What was written to the socket. -/
  written : List UInt8
  /-- The promises that were settled, in order. -/
  settled : List (Nat × Settlement)

/-- `encodeCommand` -/
def encodeCommand (args : List (List Char)) : List UInt8 :=
  Utf8.encode ('*' :: Nat.toDigits 10 args.length ++ ['\r', '\n']) ++
    args.flatMap fun a =>
      Utf8.encode ('$' :: Nat.toDigits 10 (Utf8.encode a).length ++ ['\r', '\n'] ++ a ++ ['\r', '\n'])

namespace RawRespClient

/-- A client whose socket has connected. -/
def connected : RawRespClient := ⟨[], [], 0, [], []⟩

/-- The call that has waited longest is settled. -/
def settle (c : RawRespClient) (settlement : Settlement) : RawRespClient :=
  match c.pending with
  | [] => c
  | call :: pending => { c with pending, settled := c.settled ++ [(call, settlement)] }

/-- How a reply settles its call. -/
def settlement : Value → Settlement
  | .error message => .rejected message
  | value => .resolved value

/-- The loop of `onData`. Each turn but the last takes bytes off the buffer. -/
def progress : Nat → RawRespClient → Option RawRespClient
  | 0, _ => none
  | turns + 1, c =>
    match tryParseReply (c.buffer.length + 1) c.buffer 0 with
    | .more => some c
    | .parsed value consumed =>
      progress turns ({ c with buffer := c.buffer.drop consumed }.settle (settlement value))
    | .throws message => some ({ c with buffer := [] }.settle (.rejected message))
    | .malformed => none

/-- `onData` -/
def onData (c : RawRespClient) (chunk : List UInt8) : Option RawRespClient :=
  let buffer := c.buffer ++ chunk
  progress (buffer.length + 1) { c with buffer }

/-- `send`, from where `ready` has resolved. -/
def send (c : RawRespClient) (args : List (List Char)) : RawRespClient :=
  { c with
    pending := c.pending ++ [c.calls]
    calls := c.calls + 1
    written := c.written ++ encodeCommand args }

end RawRespClient

/-- What happens on a connection. -/
inductive RespEvent where
  /-- A call of `send` writes its command. -/
  | send (args : List (List Char))
  /-- A chunk comes in. -/
  | data (chunk : List UInt8)

namespace RespEvent

/-- The bytes that come in. -/
def received : List RespEvent → List UInt8
  | [] => []
  | send _ :: events => received events
  | data chunk :: events => chunk ++ received events

/-- How many calls there are. -/
def sends : List RespEvent → Nat
  | [] => 0
  | send _ :: events => sends events + 1
  | data _ :: events => sends events

/-- The server answers the commands with these replies: at every moment, what has been received is the
beginning of the replies to the commands that were sent. -/
def AnsweredBy (events : List RespEvent) (replies : List Reply) : Prop :=
  ∀ before, before <+: events →
    received before <+: Reply.encodeAll (replies.take (sends before))

instance (events : List RespEvent) (replies : List Reply) : Decidable (AnsweredBy events replies) :=
  decidable_of_iff
    (∀ before ∈ events.inits, received before <+: Reply.encodeAll (replies.take (sends before)))
    ⟨fun h before hb => h before ((List.mem_inits before events).mpr hb),
      fun h before hb => h before ((List.mem_inits before events).mp hb)⟩

end RespEvent

namespace RawRespClient

/-- An event, if the client comes to the end of it. -/
def step (c : RawRespClient) : RespEvent → Option RawRespClient
  | .send args => some (c.send args)
  | .data chunk => c.onData chunk

/-- A run of events. -/
def run (c : RawRespClient) (events : List RespEvent) : Option RawRespClient := events.foldlM step c

/-- Every call settled in turn, each by its own reply. -/
def settlements (replies : List Reply) : List (Nat × Settlement) :=
  (List.range replies.length).zip (replies.map fun reply => settlement reply.value)

end RawRespClient

end SupplyChain
