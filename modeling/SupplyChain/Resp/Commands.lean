import SupplyChain.Resp.AnyBytes

/-!
# Commands as they are read

What a receiver makes of the commands of `encodeCommand` when it reads them with `tryParseReply`, one after
the other. Arguments are texts of any kind: empty, with CR and LF, or with the markers of the protocol.
-/

namespace SupplyChain.AnyBytes

open Double (ofInt)

/-- The value that a command is read as. -/
def command (args : List (List Char)) : JsValue := .array (args.map .text)

/-- The values at the front of a buffer, one after the other, and the bytes that are left where more are
needed. -/
def readAll : Nat → List UInt8 → Option (List JsValue × List UInt8)
  | 0, _ => none
  | fuel + 1, buf =>
    match tryParseReply fuel buf (ofInt 0) with
    | none => none
    | some .more => some ([], buf)
    | some (.throws _) => none
    | some (.parsed value consumed) =>
      (readAll fuel (sliceFrom buf consumed)).map fun (values, rest) => (value :: values, rest)

/-- The bytes of commands, one after the other. -/
def encodeCommands (commands : List (List (List Char))) : List UInt8 := commands.flatMap encodeCommand

end SupplyChain.AnyBytes
