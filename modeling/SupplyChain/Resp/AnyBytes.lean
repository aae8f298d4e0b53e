import SupplyChain.Resp.RawRespClient
import SupplyChain.Text.Double

/-!
# The RESP client on any bytes

`tryParseReply` and `RawRespClient.onData` of `redisClient.ts` with the numbers of JavaScript: a length is
what `Number` makes of a line, offsets and consumed counts are doubles, and neither the parser nor the loop
over the buffer need come to an end. `SupplyChain.Resp.RawRespClient` is what they do to the replies of a
server.
-/

namespace SupplyChain

namespace AnyBytes

open Resp (CR LF)
open Double (ofInt)

/-- The values of JavaScript that stand for replies. -/
inductive JsValue where
  /-- A string. -/
  | text (chars : List Char)
  /-- An `Error`, by its message. -/
  | error (message : List Char)
  /-- A number, which may be `NaN`. -/
  | number (x : Double)
  /-- `null` -/
  | null
  /-- An array. -/
  | array (items : List JsValue)

/-! ## Buffers -/

/-- `buffer.constants.MAX_LENGTH`, or more. -/
def MAX_LENGTH : Nat := 2 ^ 53 - 1

/-- A buffer of Node. -/
structure Buffer where
  /-- Its bytes. -/
  bytes : List UInt8
  /-- No buffer is longer. -/
  fits : bytes.length ≤ MAX_LENGTH

/-- `Buffer.concat([a, b])`, which throws if the result is too long. -/
def Buffer.concat (a b : Buffer) : Option Buffer :=
  if h : (a.bytes ++ b.bytes).length ≤ MAX_LENGTH then some ⟨a.bytes ++ b.bytes, h⟩ else none

/-- `buf.length` -/
def length (buf : List UInt8) : Double := ofInt buf.length

/-- `buf[offset]` -/
def elementAt (buf : List UInt8) : Double → Option UInt8
  | .finite x => if x.den = 1 ∧ 0 ≤ x.num then buf[x.num.toNat]? else none
  | _ => none

/-- `String.fromCharCode(byte)`, where `undefined` is read as zero. -/
def fromCharCode (byte : Option UInt8) : Char := Char.ofNat (byte.getD 0).toNat

/-- `buf.indexOf("\r\n", offset)` -/
def indexOf (buf : List UInt8) (offset : Double) : Option Nat :=
  indexOfCRLF buf (offset.index buf.length)

/-- `buf.subarray(start, end)` -/
def slice (buf : List UInt8) (start stop : Double) : List UInt8 :=
  subarray buf (start.index buf.length) (stop.index buf.length)

/-- `buf.subarray(start)` -/
def sliceFrom (buf : List UInt8) (start : Double) : List UInt8 := buf.drop (start.index buf.length)

/-! ## `tryParseReply` -/

/-- What an attempt to parse comes to. -/
inductive Parsed (α : Type) where
  /-- More bytes are needed: `null`. -/
  | more
  /-- The value, and how many bytes were consumed, or for the items of an array, the cursor. -/
  | parsed (value : α) (consumed : Double)
  /-- The `throw` of the `default` case. -/
  | throws (message : List Char)

/-- `for (let i = 0; i < count; i++)`, over the items of an array. -/
def parseItems (parse : Double → Option (Parsed JsValue)) (count : Double) :
    Nat → Double → Double → List JsValue → Option (Parsed (List JsValue))
  | 0, _, _, _ => none
  | turns + 1, i, cursor, values =>
    if i.lt count then
      match parse cursor with
      | some (.parsed value consumed) =>
        parseItems parse count turns (i.add (ofInt 1)) (cursor.add consumed) (values ++ [value])
      | some .more => some .more
      | some (.throws message) => some (.throws message)
      | none => none
    else some (.parsed values cursor)

/-- `start + len + 2` -/
def bulkEnd (start : Nat) (len : Double) : Double := ((ofInt start).add len).add (ofInt 2)

/-- The `switch` of `tryParseReply`, over a line that ends before `start`. -/
def parseBody (parse : Double → Option (Parsed JsValue)) (turns : Nat) (buf : List UInt8) (offset : Double)
    (type : Char) (line : List Char) (start : Nat) : Option (Parsed JsValue) :=
  let consumed := (ofInt start).sub offset
  if type = '+' then some (.parsed (.text line) consumed)
  else if type = '-' then some (.parsed (.error line) consumed)
  else if type = ':' then some (.parsed (.number (Double.Number line)) consumed)
  else if type = '$' then
    let len := Double.Number line
    if len = ofInt (-1) then some (.parsed .null consumed)
    else if (length buf).lt (bulkEnd start len) then some .more
    else
      let value := Utf8.decode (slice buf (ofInt start) ((ofInt start).add len))
      some (.parsed (.text value) ((bulkEnd start len).sub offset))
  else if type = '*' then
    let count := Double.Number line
    if count = ofInt (-1) then some (.parsed .null consumed)
    else
      match parseItems parse count turns (ofInt 0) (ofInt start) [] with
      | some (.parsed values cursor) => some (.parsed (.array values) (cursor.sub offset))
      | some .more => some .more
      | some (.throws message) => some (.throws message)
      | none => none
  else some (.throws ("Unsupported RESP type byte: ".toList ++ [type]))

/-- `tryParseReply`, up to a depth and a number of turns of its loops: `none` is that it has not come
to an end. -/
def tryParseReply : Nat → List UInt8 → Double → Option (Parsed JsValue)
  | 0, _, _ => none
  | fuel + 1, buf, offset =>
    if (length buf).le offset then some .more
    else
      let type := fromCharCode (elementAt buf offset)
      match indexOf buf (offset.add (ofInt 1)) with
      | none => some .more
      | some lineEnd =>
        let line := Utf8.decode (slice buf (offset.add (ofInt 1)) (ofInt lineEnd))
        parseBody (tryParseReply fuel buf) fuel buf offset type line (lineEnd + 2)

/-! ## `RawRespClient` -/

/-- How the promise of a call is settled. -/
inductive Settlement where
  /-- With a value. -/
  | resolved (value : JsValue)
  /-- With an error. -/
  | rejected (message : List Char)

/-- `RawRespClient`, from its first command on. -/
structure RawRespClient where
  /-- What has come in and is not consumed. -/
  buffer : Buffer
  /-- The calls that wait for their replies, the oldest first. -/
  pending : List Nat
  /-- The calls whose promises are settled, in the order in which they were. -/
  settled : List (Nat × Settlement)

/-- How a call of `onData` ends. -/
inductive Ending where
  /-- Nothing is thrown. -/
  | returns (c : RawRespClient)
  /-- `Buffer.concat` throws. -/
  | throws

namespace RawRespClient

/-- The call that has waited longest is settled. -/
def settle (c : RawRespClient) (settlement : Settlement) : RawRespClient :=
  match c.pending with
  | [] => c
  | call :: pending => { c with pending, settled := c.settled ++ [(call, settlement)] }

/-- A reply that is an `Error` rejects the promise. -/
def settlement : JsValue → Settlement
  | .error message => .rejected message
  | value => .resolved value

/-- `this.buffer = this.buffer.subarray(consumed)` -/
def consume (c : RawRespClient) (consumed : Double) : RawRespClient :=
  { c with
    buffer := ⟨sliceFrom c.buffer.bytes consumed,
      Nat.le_trans (by simp [sliceFrom]) c.buffer.fits⟩ }

/-- `this.buffer = Buffer.alloc(0)` -/
def clear (c : RawRespClient) : RawRespClient := { c with buffer := ⟨[], Nat.zero_le _⟩ }

/-- The loop of `onData`. -/
def progress : Nat → RawRespClient → Option RawRespClient
  | 0, _ => none
  | fuel + 1, c =>
    match tryParseReply fuel c.buffer.bytes (ofInt 0) with
    | none => none
    | some .more => some c
    | some (.throws message) => some (c.clear.settle (.rejected message))
    | some (.parsed value consumed) => progress fuel ((c.consume consumed).settle (settlement value))

/-- `onData`, to some depth and number of turns. -/
def onData (fuel : Nat) (c : RawRespClient) (chunk : Buffer) : Option Ending :=
  match c.buffer.concat chunk with
  | none => some .throws
  | some buffer => (progress fuel { c with buffer }).map .returns

end RawRespClient

/-! ## The replies in a buffer -/

/-- A type byte and a line, which ends before `start`. -/
structure Header where
  /-- The first byte. -/
  type : Char
  /-- What follows it, up to the end of the line. -/
  line : List Char
  /-- Where the line's CRLF ends. -/
  start : Nat
  deriving DecidableEq

/-- The header at an offset, if its line has come in. -/
def header (buf : List UInt8) (o : Nat) : Option Header :=
  match buf[o]?, indexOfCRLF buf (o + 1) with
  | some byte, some lineEnd =>
    some ⟨Char.ofNat byte.toNat, Utf8.decode (subarray buf (o + 1) lineEnd), lineEnd + 2⟩
  | _, _ => none

namespace Header

/-- The number that the line says. -/
def number (h : Header) : Double := Double.Number h.line

/-- Where a bulk string of that length ends. -/
def bulkEnd (h : Header) : Double := AnyBytes.bulkEnd h.start h.number

/-- A bulk string follows. -/
def IsBulk (h : Header) : Prop := h.type = '$' ∧ h.number ≠ ofInt (-1)

/-- Items follow. -/
def IsArray (h : Header) : Prop := h.type = '*' ∧ h.number ≠ ofInt (-1)

/-- The reply is its line. -/
def IsLine (h : Header) : Prop :=
  h.type = '+' ∨ h.type = '-' ∨ h.type = ':' ∨ (h.type = '$' ∨ h.type = '*') ∧ h.number = ofInt (-1)

end Header

/-- The reply at an offset, or the first `n` items of the array there. -/
inductive Part where
  /-- The reply at an offset. -/
  | reply (o : Nat)
  /-- The first `n` items of the array at an offset. -/
  | items (o n : Nat)

/-- Where a part of a buffer ends, if every bulk string in it has a length that leads forward. -/
inductive Extent (buf : List UInt8) : Part → Nat → Prop where
  /-- A reply that is its line. -/
  | line {o : Nat} {h : Header} (hheader : header buf o = some h) (hline : h.IsLine) :
    Extent buf (.reply o) h.start
  /-- A bulk string, of a length that leads forward and within the buffer. -/
  | bulk {o stop : Nat} {h : Header} (hheader : header buf o = some h) (hbulk : h.IsBulk)
    (hstop : h.bulkEnd = ofInt stop) (hforward : o < stop) (hwithin : stop ≤ buf.length) :
    Extent buf (.reply o) stop
  /-- An array all of whose items end. -/
  | array {o n stop : Nat} {h : Header} (hheader : header buf o = some h) (harray : h.IsArray)
    (hitems : Extent buf (.items o n) stop) (hdone : (ofInt n).lt h.number = false) :
    Extent buf (.reply o) stop
  /-- No item of an array yet. -/
  | start {o : Nat} {h : Header} (hheader : header buf o = some h) (harray : h.IsArray) :
    Extent buf (.items o 0) h.start
  /-- One more item of an array. -/
  | item {o n cursor stop : Nat} {h : Header} (hheader : header buf o = some h) (harray : h.IsArray)
    (hitems : Extent buf (.items o n) cursor) (hmore : (ofInt n).lt h.number = true)
    (hitem : Extent buf (.reply cursor) stop) : Extent buf (.items o (n + 1)) stop

/-- The headers that are met when what was received is read from the front, reply after reply, each
reply in what the one before has left. -/
inductive Reads (received : List UInt8) : List UInt8 → Nat → Prop where
  /-- The first header. -/
  | first : Reads received received 0
  /-- The header after a reply that has ended. -/
  | next {buf : List UInt8} {stop : Nat} (hreads : Reads received buf 0)
    (hextent : Extent buf (.reply 0) stop) : Reads received (buf.drop stop) 0
  /-- The header of an item of an array. -/
  | item {buf : List UInt8} {o n cursor : Nat} {h : Header} (hreads : Reads received buf o)
    (hheader : header buf o = some h) (harray : h.IsArray) (hitems : Extent buf (.items o n) cursor)
    (hmore : (ofInt n).lt h.number = true) : Reads received buf cursor

/-- A bulk string whose end lies within the buffer and is no integer beyond its header. -/
def BadLength (buf : List UInt8) (o : Nat) : Prop :=
  ∃ h, header buf o = some h ∧ h.IsBulk ∧ (length buf).lt h.bulkEnd = false ∧
    ∀ stop : Nat, h.bulkEnd = ofInt stop → stop ≤ o

/-! ## The calls of `tryParseReply` -/

/-- The counter and the cursor of the loop over the items of an array, turn after turn. -/
inductive ItemAt (buf : List UInt8) (h : Header) : Double → Double → Prop where
  /-- The first turn. -/
  | start : ItemAt buf h (ofInt 0) (ofInt h.start)
  /-- The next turn, after a reply that was parsed. -/
  | next {i cursor consumed : Double} {fuel : Nat} {value : JsValue} (hat : ItemAt buf h i cursor)
    (hmore : i.lt h.number = true)
    (hparse : tryParseReply fuel buf cursor = some (.parsed value consumed)) :
    ItemAt buf h (i.add (ofInt 1)) (cursor.add consumed)

/-- The calls that a call of `onData` makes, by itself and for the items of arrays. -/
inductive Called (received : List UInt8) : List UInt8 → Double → Prop where
  /-- The first call of the loop of `onData`. -/
  | first : Called received received (ofInt 0)
  /-- A further one, on what is left of the buffer. -/
  | next {buf : List UInt8} {fuel : Nat} {value : JsValue} {consumed : Double}
    (hcalled : Called received buf (ofInt 0))
    (hparse : tryParseReply fuel buf (ofInt 0) = some (.parsed value consumed)) :
    Called received (sliceFrom buf consumed) (ofInt 0)
  /-- The call for an item of an array. -/
  | item {buf : List UInt8} {o : Nat} {h : Header} {i cursor : Double}
    (hcalled : Called received buf (ofInt o)) (hheader : header buf o = some h) (harray : h.IsArray)
    (hat : ItemAt buf h i cursor) (hmore : i.lt h.number = true) : Called received buf cursor

/-- A positive integer, not larger than the buffer. -/
def PositiveWithin (buf : List UInt8) (consumed : Double) : Prop :=
  ∃ n : Nat, consumed = ofInt n ∧ 0 < n ∧ n ≤ buf.length

namespace RawRespClient

/-- The call of `onData` ends, and whatever `tryParseReply` returns in it consumes a positive integer of
bytes, not more than there are. -/
structure Processes (c : RawRespClient) (chunk : Buffer) : Prop where
  /-- It comes to an end. -/
  ends : ∃ fuel ending, onData fuel c chunk = some ending
  /-- What it consumes is there. -/
  consumes {buffer : Buffer} (hbuffer : c.buffer.concat chunk = some buffer) {buf : List UInt8}
    {offset : Double} (hcalled : Called buffer.bytes buf offset) {fuel : Nat} {value : JsValue}
    {consumed : Double} (hparse : tryParseReply fuel buf offset = some (.parsed value consumed)) :
    PositiveWithin buf consumed

/-- No bulk string that is read has a length that leads nowhere. -/
def LengthsLeadForward (c : RawRespClient) (chunk : Buffer) : Prop :=
  ∀ buffer, c.buffer.concat chunk = some buffer →
    ∀ buf o, Reads buffer.bytes buf o → ¬ BadLength buf o

end RawRespClient

end AnyBytes

end SupplyChain
