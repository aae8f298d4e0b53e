import SupplyChain.Text.Decimal
import SupplyChain.Text.Utf8

/-!
# RESP2 replies

The replies of the protocol, how they are written, and the value that each stands for. A simple string is
any line, so replies carry bytes; a numeral may have leading zeros, and an integer a sign.
-/

namespace Resp

/-- Carriage return. -/
def CR : UInt8 := 13
/-- Line feed. -/
def LF : UInt8 := 10

/-- What stands before the digits of an integer. -/
inductive Sign where
  /-- Nothing. -/
  | unsigned
  /-- `+` -/
  | plus
  /-- `-` -/
  | minus

namespace Sign

/-- The characters of the sign. -/
def text : Sign → List Char
  | unsigned => []
  | plus => ['+']
  | minus => ['-']

/-- The integer with this sign and these digits. -/
def apply (n : Nat) : Sign → Int
  | unsigned => n
  | plus => n
  | minus => -n

end Sign

/-- A reply of a server, as it writes it. -/
inductive Reply where
  /-- A simple string. -/
  | simple (text : List UInt8)
  /-- An error. -/
  | error (message : List UInt8)
  /-- An integer, with leading zeros that the protocol allows. -/
  | integer (sign : Sign) (zeros n : Nat)
  /-- `$-1` -/
  | nullBulk
  /-- A bulk string, its length with leading zeros. -/
  | bulk (zeros : Nat) (content : List UInt8)
  /-- `*-1` -/
  | nullArray
  /-- An array, its length with leading zeros. -/
  | array (zeros : Nat) (items : List Reply)

/-- The values of JavaScript that stand for replies. A number is what it is as a double; `none` is NaN. -/
inductive Value where
  /-- A string. -/
  | text (chars : List Char)
  /-- An `Error`, by its message. -/
  | error (message : List Char)
  /-- A number, or `NaN`. -/
  | number (n : Option Int)
  /-- `null` -/
  | null
  /-- An array. -/
  | array (items : List Value)

/-- A type byte, a line, and what follows the line. -/
def frame (type : Char) (line body : List UInt8) : List UInt8 :=
  type.toUInt8 :: line ++ CR :: LF :: body

/-- A signed numeral as bytes. -/
def numeral (sign : Sign) (zeros n : Nat) : List UInt8 :=
  Utf8.encode (sign.text ++ Decimal.numeral zeros n)

namespace Reply

mutual

/-- The bytes of a reply. -/
def encode : Reply → List UInt8
  | simple text => frame '+' text []
  | error message => frame '-' message []
  | integer sign zeros n => frame ':' (numeral sign zeros n) []
  | nullBulk => frame '$' (numeral .minus 0 1) []
  | bulk zeros content =>
    frame '$' (numeral .unsigned zeros content.length) (content ++ [CR, LF])
  | nullArray => frame '*' (numeral .minus 0 1) []
  | array zeros items => frame '*' (numeral .unsigned zeros items.length) (encodeAll items)

/-- Replies one after the other. -/
def encodeAll : List Reply → List UInt8
  | [] => []
  | reply :: replies => reply.encode ++ encodeAll replies

end

mutual

/-- What the client makes of a reply. -/
def value : Reply → Value
  | simple text => .text (Utf8.decode text)
  | error message => .error (Utf8.decode message)
  | integer sign _ n => .number (some (sign.apply (Decimal.nearestDouble n)))
  | nullBulk => .null
  | bulk _ content => .text (Utf8.decode content)
  | nullArray => .null
  | array _ items => .array (values items)

/-- What it makes of each. -/
def values : List Reply → List Value
  | [] => []
  | reply :: replies => reply.value :: values replies

end

/-- A line holds neither CR nor LF, an integer has 64 bits, and no length is beyond what a client can
hold (2^53 - 1 bytes or items). -/
inductive WellFormed : Reply → Prop where
  /-- The line has no line end in it. -/
  | simple {text : List UInt8} (hcr : CR ∉ text) (hlf : LF ∉ text) : WellFormed (.simple text)
  /-- Nor has an error's. -/
  | error {message : List UInt8} (hcr : CR ∉ message) (hlf : LF ∉ message) :
    WellFormed (.error message)
  /-- An integer fits in 64 bits. -/
  | integer {sign : Sign} {zeros n : Nat} (hlow : -2 ^ 63 ≤ sign.apply n)
    (hhigh : sign.apply n < 2 ^ 63) : WellFormed (.integer sign zeros n)
  /-- The null bulk string. -/
  | nullBulk : WellFormed .nullBulk
  /-- A length is one that JavaScript reads exactly. -/
  | bulk {zeros : Nat} {content : List UInt8} (hlength : content.length < 2 ^ 53) :
    WellFormed (.bulk zeros content)
  /-- The null array. -/
  | nullArray : WellFormed .nullArray
  /-- So is a count, and each item is well formed. -/
  | array {zeros : Nat} {items : List Reply} (hlength : items.length < 2 ^ 53)
    (hitems : ∀ item ∈ items, WellFormed item) : WellFormed (.array zeros items)

theorem encodeAll_append (replies replies' : List Reply) :
    encodeAll (replies ++ replies') = encodeAll replies ++ encodeAll replies' := by
  induction replies with
  | nil => rfl
  | cons reply replies ih => rw [List.cons_append, encodeAll, encodeAll, ih, List.append_assoc]

/-- A bulk string that holds UTF-8 stands for its text. -/
theorem value_bulk_encode (zeros : Nat) (text : List Char) :
    (bulk zeros (Utf8.encode text)).value = .text text := by
  rw [value, Utf8.decode_encode]

/-- An integer of at most 53 bits stands for itself. -/
theorem value_integer {sign : Sign} {zeros n : Nat} (h : n < 2 ^ 53) :
    (integer sign zeros n).value = .number (some (sign.apply n)) := by
  rw [value, Decimal.nearestDouble_of_lt h]

end Reply

/-! ## The lines of numerals -/

theorem parseNumber_numeral (sign : Sign) (zeros n : Nat) :
    Decimal.parseNumber (Utf8.decode (numeral sign zeros n)) =
      some (sign.apply (Decimal.nearestDouble n)) := by
  rw [numeral, Utf8.decode_encode]
  cases sign with
  | unsigned => exact Decimal.parseNumber_numeral zeros n
  | plus =>
    rw [Sign.text, List.singleton_append, Decimal.parseNumber, Decimal.natural_numeral]
    rfl
  | minus =>
    rw [Sign.text, List.singleton_append, Decimal.parseNumber, Decimal.natural_numeral]
    rfl

theorem cr_notMem_encode {text : List Char} (h : ∀ c ∈ text, c.isDigit = true ∨ c = '+' ∨ c = '-') :
    CR ∉ Utf8.encode text := by
  intro hmem
  obtain ⟨c, hc, hbyte⟩ := List.mem_flatMap.mp hmem
  rcases h c hc with hdigit | rfl | rfl
  · simp only [Char.isDigit, ge_iff_le, Bool.and_eq_true, decide_eq_true_eq, UInt32.le_iff_toNat_le]
      at hdigit
    obtain ⟨hlow, hhigh⟩ := hdigit
    have hlow : 48 ≤ c.val.toNat := hlow
    have hhigh : c.val.toNat ≤ 57 := hhigh
    rw [String.utf8EncodeChar, if_pos (by omega), List.mem_singleton] at hbyte
    have hnat := congrArg UInt8.toNat hbyte
    rw [UInt8.toNat_ofNat'] at hnat
    simp only [CR, UInt8.toNat_ofNat] at hnat
    omega
  · exact absurd hbyte (by decide)
  · exact absurd hbyte (by decide)

theorem cr_notMem_numeral (sign : Sign) (zeros n : Nat) : CR ∉ numeral sign zeros n := by
  refine cr_notMem_encode fun c hc => ?_
  rcases List.mem_append.mp hc with hsign | hdigit
  · cases sign with
    | unsigned => cases hsign
    | plus => exact Or.inr (Or.inl (List.mem_singleton.mp hsign))
    | minus => exact Or.inr (Or.inr (List.mem_singleton.mp hsign))
  · exact Or.inl (Decimal.isDigit_of_mem_numeral hdigit)

end Resp
