/-!
# UTF-8

`Buffer` turns bytes into text with `toString`, which reads UTF-8 and puts U+FFFD for what is none.
-/

namespace Utf8

/-- The bytes of a text. -/
def encode (text : List Char) : List UInt8 := text.flatMap String.utf8EncodeChar

/-- The length of the longest part of a character, or of a byte that starts none, at the front of bytes
that do not start with a character. -/
def brokenLength : List UInt8 → Nat
  | b :: c :: rest =>
    let second : Bool :=
      if b = 0xE0 then 0xA0 ≤ c && c ≤ 0xBF
      else if b = 0xED then 0x80 ≤ c && c ≤ 0x9F
      else if b = 0xF0 then 0x90 ≤ c && c ≤ 0xBF
      else if b = 0xF4 then 0x80 ≤ c && c ≤ 0x8F
      else 0xE1 ≤ b && b ≤ 0xF3 && 0x80 ≤ c && c ≤ 0xBF
    let third : Bool := 0xF0 ≤ b && rest.head?.any fun d => 0x80 ≤ d && d ≤ 0xBF
    if second then if third then 3 else 2 else 1
  | _ => 1

/-- The characters after the next `skip` bytes. -/
def chars : Nat → List UInt8 → List Char
  | _, [] => []
  | skip + 1, _ :: rest => chars skip rest
  | 0, b :: rest =>
    match (b :: rest).toByteArray.utf8DecodeChar? 0 with
    | some c => c :: chars (c.utf8Size - 1) rest
    | none => '\uFFFD' :: chars (brokenLength (b :: rest) - 1) rest

/-- `buf.toString("utf8")` -/
def decode (bytes : List UInt8) : List Char := chars 0 bytes

theorem chars_skip (skipped rest : List UInt8) : chars skipped.length (skipped ++ rest) = chars 0 rest := by
  induction skipped with
  | nil => rfl
  | cons b skipped ih => exact ih

theorem decode_char_append (c : Char) (rest : List UInt8) :
    decode (String.utf8EncodeChar c ++ rest) = c :: decode rest := by
  have hchar : (String.utf8EncodeChar c ++ rest).toByteArray.utf8DecodeChar? 0 = some c := by
    rw [List.toByteArray_append]
    exact ByteArray.utf8DecodeChar?_utf8EncodeChar_append
  have hsize := String.length_utf8EncodeChar c
  cases hbytes : String.utf8EncodeChar c with
  | nil =>
    rw [hbytes] at hsize
    exact absurd hsize.symm (Nat.ne_of_gt c.utf8Size_pos)
  | cons b tail =>
    rw [hbytes] at hchar hsize
    rw [List.cons_append] at hchar
    have htail : c.utf8Size - 1 = tail.length := by
      rw [← hsize, List.length_cons, Nat.add_sub_cancel]
    rw [decode, List.cons_append, chars, hchar]
    show c :: chars (c.utf8Size - 1) (tail ++ rest) = _
    rw [htail, chars_skip, decode]

/-- The text that was encoded comes back. -/
theorem decode_encode (text : List Char) : decode (encode text) = text := by
  induction text with
  | nil => rfl
  | cons c text ih => rw [encode, List.flatMap_cons, decode_char_append, ← encode, ih]

example : decode [0x41, 0xF0, 0x9F, 0x98, 0x0D, 0xE2, 0x82, 0xAC, 0xFF] =
    ['A', '\uFFFD', '\r', '€', '\uFFFD'] := by
  decide +kernel

end Utf8
