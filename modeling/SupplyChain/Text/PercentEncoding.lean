import SupplyChain.Text.Hex
import SupplyChain.Text.Utf8

/-!
# Percent-encoding

`encodeURIComponent` and `decodeURIComponent`. What is not written as itself is written as the bytes of its
UTF-8; escapes that are not the bytes of a character are an error.
-/

namespace PercentEncoding

/-- The characters that are written as themselves. -/
def unreserved (c : Char) : Bool := c.isAlphanum || "-_.!~*'()".toList.contains c

/-- `%XX`, in upper case. -/
def escape (b : UInt8) : List Char := '%' :: (Hex.encodeByte b).map Char.toUpper

/-- What `encodeURIComponent` makes of a character. -/
def encodeChar (c : Char) : List Char :=
  if unreserved c then [c] else (String.utf8EncodeChar c).flatMap escape

/-- `encodeURIComponent(text)` -/
def encodeURIComponent (text : List Char) : List Char := text.flatMap encodeChar

/-- The byte of the escape at the front of a text, and what follows it. -/
def octet : List Char → Option (UInt8 × List Char)
  | '%' :: high :: low :: rest => (Hex.byte high low).map fun b => (b, rest)
  | _ => none

/-- The bytes of the next `n` escapes. -/
def octets : Nat → List Char → Option (List UInt8)
  | 0, _ => some []
  | n + 1, text =>
    match octet text with
    | some (b, rest) => (octets n rest).map (b :: ·)
    | none => none

/-- How many of the highest bits of a byte are set, if it is less than five. -/
def leadingOnes (b : UInt8) : Nat :=
  if b < 0x80 then 0 else if b < 0xC0 then 1 else if b < 0xE0 then 2 else if b < 0xF0 then 3
  else if b < 0xF8 then 4 else 5

/-- The character whose bytes these are. -/
def character (bytes : List UInt8) : Option Char := bytes.toByteArray.utf8DecodeChar? 0

/-- The character of the escapes at the front of a text, and how long they are. -/
def unescape (text : List Char) : Option (Char × Nat) :=
  match octet text with
  | none => none
  | some (b, rest) =>
    let n := leadingOnes b
    if n = 0 then some (Char.ofNat b.toNat, 3)
    else if n = 1 ∨ 4 < n then none
    else match octets (n - 1) rest with
      | none => none
      | some continuation => (character (b :: continuation)).map fun c => (c, 3 * n)

/-- The text after the next `skip` characters. -/
def decodeFrom : Nat → List Char → Option (List Char)
  | _, [] => some []
  | skip + 1, _ :: rest => decodeFrom skip rest
  | 0, c :: rest =>
    if c = '%' then
      match unescape (c :: rest) with
      | some (decoded, length) => (decodeFrom (length - 1) rest).map (decoded :: ·)
      | none => none
    else (decodeFrom 0 rest).map (c :: ·)

/-- `decodeURIComponent(text)`; `none` is that it throws. -/
def decodeURIComponent (text : List Char) : Option (List Char) := decodeFrom 0 text

/-! ## What was encoded is decoded -/

theorem decodeFrom_skip (skipped rest : List Char) :
    decodeFrom skipped.length (skipped ++ rest) = decodeFrom 0 rest := by
  induction skipped with
  | nil => rfl
  | cons c skipped ih => exact ih

theorem octet_escape (b : UInt8) (rest : List Char) : octet (escape b ++ rest) = some (b, rest) := by
  have hupper : ∀ n < 16, Double.digitValue (Hex.digit n).toUpper = some n := by decide +kernel
  have hlt := b.toNat_lt
  show ((Hex.byte (Hex.digit (b.toNat / 16)).toUpper (Hex.digit (b.toNat % 16)).toUpper).map
    fun b => (b, rest)) = _
  rw [Hex.byte, hupper _ (by omega), hupper _ (by omega)]
  dsimp only
  rw [Hex.byte_halves, UInt8.ofNat_toNat]
  rfl

theorem octets_escape (bytes : List UInt8) (rest : List Char) :
    octets bytes.length (bytes.flatMap escape ++ rest) = some bytes := by
  induction bytes with
  | nil => rfl
  | cons b bytes ih =>
    rw [List.flatMap_cons, List.append_assoc, List.length_cons, octets, octet_escape]
    dsimp only
    rw [ih]
    rfl

theorem length_escapes (bytes : List UInt8) : (bytes.flatMap escape).length = 3 * bytes.length := by
  induction bytes with
  | nil => rfl
  | cons b bytes ih =>
    rw [List.flatMap_cons, List.length_append, ih, List.length_cons]
    show 3 + _ = _
    omega

theorem character_utf8EncodeChar (c : Char) : character (String.utf8EncodeChar c) = some c := by
  have h := ByteArray.utf8DecodeChar?_utf8EncodeChar_append (b := [].toByteArray) (c := c)
  rw [← List.toByteArray_append, List.append_nil] at h
  exact h

theorem toNat_ofNat {n : Nat} (h : n < 256) : (UInt8.ofNat n).toNat = n := by
  rw [UInt8.toNat_ofNat', Nat.mod_eq_of_lt h]

theorem leadingOnes_ofNat {n : Nat} (h : n < 256) : leadingOnes (UInt8.ofNat n) =
    if n < 128 then 0 else if n < 192 then 1 else if n < 224 then 2 else if n < 240 then 3
    else if n < 248 then 4 else 5 := by
  simp only [leadingOnes, UInt8.lt_iff_toNat_lt, toNat_ofNat h]
  rfl

/-- The first byte of a character says how many there are. -/
theorem utf8EncodeChar_cases (c : Char) :
    (∃ b, String.utf8EncodeChar c = [b] ∧ leadingOnes b = 0 ∧ Char.ofNat b.toNat = c) ∨
    ∃ b bytes, String.utf8EncodeChar c = b :: bytes ∧ leadingOnes b = bytes.length + 1 ∧
      2 ≤ leadingOnes b ∧ leadingOnes b ≤ 4 := by
  have hone : c.val.toNat ≤ 127 → leadingOnes (UInt8.ofNat c.val.toNat) = 0 ∧
      Char.ofNat (UInt8.ofNat c.val.toNat).toNat = c := by
    intro h
    rw [leadingOnes_ofNat (by omega), if_pos (by omega), toNat_ofNat (by omega)]
    exact ⟨rfl, Char.ofNat_toNat c⟩
  have htwo : leadingOnes (UInt8.ofNat (c.val.toNat / 64 % 32 + 192)) = 2 := by
    rw [leadingOnes_ofNat (by omega), if_neg (by omega), if_neg (by omega), if_pos (by omega)]
  have hthree : leadingOnes (UInt8.ofNat (c.val.toNat / 4096 % 16 + 224)) = 3 := by
    rw [leadingOnes_ofNat (by omega), if_neg (by omega), if_neg (by omega), if_neg (by omega),
      if_pos (by omega)]
  have hfour : leadingOnes (UInt8.ofNat (c.val.toNat / 262144 % 8 + 240)) = 4 := by
    rw [leadingOnes_ofNat (by omega), if_neg (by omega), if_neg (by omega), if_neg (by omega),
      if_neg (by omega), if_pos (by omega)]
  rw [String.utf8EncodeChar]
  split
  · exact Or.inl ⟨_, rfl, hone ‹_›⟩
  · refine Or.inr ?_
    split
    · exact ⟨_, _, rfl, htwo, by rw [htwo], by rw [htwo]; decide⟩
    · split
      · exact ⟨_, _, rfl, hthree, by rw [hthree]; decide, by rw [hthree]; decide⟩
      · exact ⟨_, _, rfl, hfour, by rw [hfour]; decide, by rw [hfour]⟩

theorem unescape_escapes (c : Char) (rest : List Char) :
    unescape ((String.utf8EncodeChar c).flatMap escape ++ rest) =
      some (c, ((String.utf8EncodeChar c).flatMap escape).length) := by
  have hcharacter := character_utf8EncodeChar c
  rcases utf8EncodeChar_cases c with ⟨b, hbytes, hones, hc⟩ | ⟨b, bytes, hbytes, hones, hlow, hhigh⟩
  · rw [hbytes, List.flatMap_cons, List.flatMap_nil, List.append_nil, unescape, octet_escape]
    dsimp only
    rw [hones, if_pos rfl, hc]
    rfl
  · rw [hbytes] at hcharacter ⊢
    have hcount : leadingOnes b - 1 = bytes.length := by omega
    rw [length_escapes, List.flatMap_cons, List.append_assoc, unescape, octet_escape]
    dsimp only
    rw [if_neg (by omega), if_neg (by omega), hcount, octets_escape]
    dsimp only
    rw [hcharacter, hones]
    rfl

theorem decodeFrom_encodeChar (c : Char) (rest : List Char) :
    decodeFrom 0 (encodeChar c ++ rest) = (decodeFrom 0 rest).map (c :: ·) := by
  unfold encodeChar
  split
  · rename_i hplain
    have hne : c ≠ '%' := by
      rintro rfl
      exact absurd hplain (by decide)
    rw [List.singleton_append, decodeFrom, if_neg hne]
  · have hunescape := unescape_escapes c rest
    obtain ⟨b, bytes, hbytes⟩ : ∃ b bytes, String.utf8EncodeChar c = b :: bytes := by
      rcases utf8EncodeChar_cases c with ⟨b, hbytes, -⟩ | ⟨b, bytes, hbytes, -⟩
      · exact ⟨b, [], hbytes⟩
      · exact ⟨b, bytes, hbytes⟩
    obtain ⟨tail, htail⟩ : ∃ tail, (String.utf8EncodeChar c).flatMap escape = '%' :: tail := by
      rw [hbytes]
      exact ⟨_, rfl⟩
    rw [htail, List.cons_append] at hunescape ⊢
    rw [decodeFrom, if_pos rfl, hunescape]
    dsimp only
    rw [List.length_cons, Nat.add_sub_cancel, decodeFrom_skip]

/-- The text that was encoded comes back. -/
theorem decode_encode (text : List Char) : decodeURIComponent (encodeURIComponent text) = some text := by
  unfold decodeURIComponent
  induction text with
  | nil => rfl
  | cons c text ih =>
    rw [encodeURIComponent, List.flatMap_cons, ← encodeURIComponent, decodeFrom_encodeChar, ih]
    rfl

/-- What is written is unreserved or an escape. -/
theorem mem_encodeURIComponent {text : List Char} {c : Char} (h : c ∈ encodeURIComponent text) :
    unreserved c = true ∨ c = '%' := by
  have hdigit : ∀ n < 16, unreserved (Hex.digit n).toUpper = true := by decide +kernel
  obtain ⟨d, -, hd⟩ := List.mem_flatMap.mp h
  unfold encodeChar at hd
  split at hd
  · rename_i hplain
    rw [List.mem_singleton.mp hd]
    exact Or.inl hplain
  · obtain ⟨b, -, hb⟩ := List.mem_flatMap.mp hd
    have hlt := b.toNat_lt
    rcases List.mem_cons.mp hb with hpercent | hb
    · exact Or.inr hpercent
    · obtain ⟨x, hx, rfl⟩ := List.mem_map.mp hb
      rcases List.mem_cons.mp hx with rfl | hx
      · exact Or.inl (hdigit _ (by omega))
      · rw [List.mem_singleton.mp hx]
        exact Or.inl (hdigit _ (by omega))

example : decodeURIComponent "%E2%82%ac+%3b".toList = some "€+;".toList ∧
    decodeURIComponent "%E2%82".toList = none ∧ decodeURIComponent "%C0%AF".toList = none := by
  decide +kernel

end PercentEncoding
