import SupplyChain.Text.Utf8

/-!
# Event streams

How an `EventSource` reads the bytes of a `text/event-stream`, whatever the pieces in which they come, and the
frames that a server writes. Of the fields of a stream `id` and `retry` are of no account to its messages.
-/

namespace EventStream

/-- A message event. -/
structure Message where
  /-- The name of the event that is fired. -/
  type : List Char
  /-- The lines of data, joined by line feeds. -/
  data : List Char
  deriving DecidableEq

/-- A reader between two bytes of a stream. -/
structure Reader where
  /-- The bytes of the line that is not at its end yet. -/
  line : List UInt8
  /-- Whether the last line ended with CR, so that LF still belongs to its end. -/
  cr : Bool
  /-- The data buffer: a line feed ends each of its lines. -/
  data : List Char
  /-- The event type buffer. -/
  type : List Char

namespace Reader

/-- A reader at the start of a stream. -/
def start : Reader := ⟨[], false, [], []⟩

/-- What a field does: `data` adds a line, `event` sets the type, and others are ignored. -/
def field (r : Reader) (name value : List Char) : Reader :=
  if name = "data".toList then { r with data := r.data ++ value ++ ['\n'] }
  else if name = "event".toList then { r with type := value }
  else r

/-- An empty line dispatches a message, if there is data for it. -/
def dispatch (r : Reader) : Reader × Option Message :=
  let message : Message := ⟨if r.type = [] then "message".toList else r.type, r.data.dropLast⟩
  ({ r with data := [], type := [] }, if r.data = [] then none else some message)

/-- What a line does that has come to its end. -/
def endLine (r : Reader) (line : List Char) : Reader × Option Message :=
  match line with
  | [] => r.dispatch
  | c :: _ =>
    if c = ':' then (r, none)
    else
      let value := (line.dropWhile (· ≠ ':')).drop 1
      let value := if value.head? = some ' ' then value.tail else value
      (r.field (line.takeWhile (· ≠ ':')) value, none)

/-- One more byte: it ends a line, belongs to the end of the last one, or is part of the next. -/
def byte (r : Reader) (b : UInt8) : Reader × Option Message :=
  if b = 10 ∧ r.cr = true then ({ r with cr := false }, none)
  else if b = 10 ∨ b = 13 then
    let next := r.endLine (Utf8.decode r.line)
    ({ next.1 with line := [], cr := b = 13 }, next.2)
  else ({ r with line := r.line ++ [b], cr := false }, none)

/-- The messages that some bytes dispatch. -/
def read (r : Reader) : List UInt8 → Reader × List Message
  | [] => (r, [])
  | b :: bytes =>
    let next := r.byte b
    let last := next.1.read bytes
    (last.1, next.2.toList ++ last.2)

end Reader

/-- What a server writes at once. -/
inductive Frame where
  /-- A comment, which dispatches nothing. -/
  | comment (text : List Char)
  /-- A message of one line. -/
  | data (text : List Char)

namespace Frame

/-- What a server writes for the frame. -/
def text : Frame → List Char
  | comment text => ':' :: ' ' :: text ++ ['\n', '\n']
  | data text => "data: ".toList ++ text ++ ['\n', '\n']

/-- The text that the frame carries. -/
def content : Frame → List Char
  | comment text => text
  | data text => text

/-- The message that the frame dispatches. -/
def message : Frame → Option Message
  | comment _ => none
  | data text => some ⟨"message".toList, text⟩

/-- The bytes of a frame. -/
def bytes (frame : Frame) : List UInt8 := Utf8.encode frame.text

end Frame

end EventStream
