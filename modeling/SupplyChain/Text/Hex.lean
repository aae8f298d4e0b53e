import SupplyChain.Text.Double

/-!
# Hexadecimal texts

Bytes as two digits each, and what `Buffer.from(text, "hex")` makes of a text: the bytes of its pairs of
digits, up to the first pair that is none.
-/

namespace Hex

/-- The lower-case digit of a number below 16. -/
def digit (n : Nat) : Char := "0123456789abcdef".toList.getD n '0'

/-- A byte as two digits. -/
def encodeByte (b : UInt8) : List Char := [digit (b.toNat / 16), digit (b.toNat % 16)]

/-- `bytes.toString("hex")` -/
def encode (bytes : List UInt8) : List Char := bytes.flatMap encodeByte

/-- The byte of two digits, in either case. -/
def byte (high low : Char) : Option UInt8 :=
  match Double.digitValue high, Double.digitValue low with
  | some x, some y => some (UInt8.ofNat (16 * x + y))
  | _, _ => none

/-- `Buffer.from(text, "hex")`, for texts of characters up to U+00FF. Node reads a character beyond these by its
low byte, which can be that of a digit; here no such character is a digit. -/
def decode : List Char → List UInt8
  | high :: low :: rest =>
    match byte high low with
    | some b => b :: decode rest
    | none => []
  | _ => []

theorem digitValue_digit {n : Nat} (h : n < 16) : Double.digitValue (digit n) = some n := by
  have hall : ∀ n < 16, Double.digitValue (digit n) = some n := by decide +kernel
  exact hall n h

theorem byte_halves (b : UInt8) : 16 * (b.toNat / 16) + b.toNat % 16 = b.toNat :=
  Nat.div_add_mod b.toNat 16

theorem byte_digit (b : UInt8) : byte (digit (b.toNat / 16)) (digit (b.toNat % 16)) = some b := by
  have hlt := b.toNat_lt
  rw [byte, digitValue_digit (by omega), digitValue_digit (by omega)]
  dsimp only
  rw [byte_halves, UInt8.ofNat_toNat]

/-- The bytes that were written come back. -/
theorem decode_encode (bytes : List UInt8) : decode (encode bytes) = bytes := by
  induction bytes with
  | nil => rfl
  | cons b bytes ih =>
    show decode (digit (b.toNat / 16) :: digit (b.toNat % 16) :: encode bytes) = _
    rw [decode, byte_digit]
    dsimp only
    rw [ih]

theorem length_encode (bytes : List UInt8) : (encode bytes).length = 2 * bytes.length := by
  induction bytes with
  | nil => rfl
  | cons b bytes ih =>
    show (encode bytes).length + 1 + 1 = _
    rw [ih, List.length_cons]
    omega

theorem mem_digits_of_mem_encode {bytes : List UInt8} {c : Char} (h : c ∈ encode bytes) :
    c ∈ "0123456789abcdef".toList := by
  have hall : ∀ n < 16, digit n ∈ "0123456789abcdef".toList := by decide +kernel
  obtain ⟨b, -, hc⟩ := List.mem_flatMap.mp h
  have hlt := b.toNat_lt
  rcases List.mem_cons.mp hc with rfl | hlow
  · exact hall _ (by omega)
  · rw [List.mem_singleton.mp hlow]
    exact hall _ (by omega)

example : decode "0Aff5x01".toList = [0x0A, 0xFF] := by decide +kernel

end Hex
