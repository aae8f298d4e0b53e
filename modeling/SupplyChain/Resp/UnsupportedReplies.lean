import SupplyChain.Resp.RawRespClient

/-!
# Replies of unsupported types

What a server answers is here a reply of RESP2, or a reply with another type byte, such as RESP3 has them:
a line, and perhaps a body behind it. `onData` drops what is in the buffer once it sees the line of such a
reply, and goes on with whatever comes next.
-/

namespace Resp

/-- What a server answers to a command. -/
inductive Answer where
  /-- A reply of a type that the client knows. -/
  | supported (reply : Reply)
  /-- A reply of another type: a line, and what follows it. -/
  | unsupported (type : Char) (line body : List UInt8)

namespace Answer

/-- The bytes of an answer. -/
def encode : Answer → List UInt8
  | supported reply => reply.encode
  | unsupported type line body => frame type line body

/-- The bytes of some answers, one after the other. -/
def encodeAll (answers : List Answer) : List UInt8 := answers.flatMap encode

/-- An answer that the protocol allows. -/
inductive WellFormed : Answer → Prop where
  /-- A well-formed reply. -/
  | supported {reply : Reply} (hreply : reply.WellFormed) : WellFormed (.supported reply)
  /-- A type that is a byte and none of the five, before a line without a line end. -/
  | unsupported {type : Char} {line body : List UInt8} (hbyte : type.toNat < 256)
    (htype : type ∉ ['+', '-', ':', '$', '*']) (hcr : CR ∉ line) (hlf : LF ∉ line) :
    WellFormed (.unsupported type line body)

/-- Where the lines of the unsupported replies end, and the replies themselves, if the first starts at
`start`. -/
def marks (start : Nat) : List Answer → List (Nat × Nat)
  | [] => []
  | supported reply :: answers => marks (start + reply.encode.length) answers
  | unsupported type line body :: answers =>
    (start + line.length + 3, start + (frame type line body).length) ::
      marks (start + (frame type line body).length) answers

end Answer

end Resp

namespace SupplyChain

open Resp

namespace RespEvent

/-- The server answers the commands with these answers. -/
def AnsweredWith (events : List RespEvent) (answers : List Answer) : Prop :=
  ∀ before, before <+: events →
    received before <+: Answer.encodeAll (answers.take (sends before))

instance (events : List RespEvent) (answers : List Answer) : Decidable (AnsweredWith events answers) :=
  decidable_of_iff
    (∀ before ∈ events.inits, received before <+: Answer.encodeAll (answers.take (sends before)))
    ⟨fun h before hb => h before ((List.mem_inits before events).mpr hb),
      fun h before hb => h before ((List.mem_inits before events).mp hb)⟩

/-- The data that completes the line of an unsupported reply ends where that reply ends. -/
def CutAtUnsupported (events : List RespEvent) (answers : List Answer) : Prop :=
  ∀ i < events.length, ∀ mark ∈ Answer.marks 0 answers,
    (received (events.take i)).length < mark.1 → mark.1 ≤ (received (events.take (i + 1))).length →
      (received (events.take (i + 1))).length = mark.2

instance (events : List RespEvent) (answers : List Answer) : Decidable (CutAtUnsupported events answers) :=
  inferInstanceAs (Decidable (∀ i < events.length, ∀ mark ∈ Answer.marks 0 answers,
    (received (events.take i)).length < mark.1 → mark.1 ≤ (received (events.take (i + 1))).length →
      (received (events.take (i + 1))).length = mark.2))

end RespEvent

namespace RawRespClient

/-- How an answer settles its own call. -/
def answered : Answer → Settlement
  | .supported reply => settlement reply.value
  | .unsupported type _ _ => .rejected ("Unsupported RESP type byte: ".toList ++ [type])

/-- Each promise that was settled was settled by the answer to its own command, and whoever's answer has
arrived is not waiting. -/
structure Faithful (answers : List Answer) (events : List RespEvent) (c : RawRespClient) : Prop where
  /-- A call that is settled is so by its own answer. -/
  own : ∀ call settlement, (call, settlement) ∈ c.settled →
    (answers.map answered)[call]? = some settlement
  /-- Once the bytes of some answers have come in, their calls are settled. -/
  arrived : ∀ n ≤ answers.length,
    Answer.encodeAll (answers.take n) <+: RespEvent.received events →
      ∀ call < n, ∃ settlement, (call, settlement) ∈ c.settled

end RawRespClient

end SupplyChain
