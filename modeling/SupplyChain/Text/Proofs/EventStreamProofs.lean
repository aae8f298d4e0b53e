import SupplyChain.Text.EventStream
import SupplyChain.Text.Proofs.JsonProofs

/-!
# Proofs: frames are read as the messages that they are

A frame leaves the reader as it was at the start, so frames are read one after the other. The pieces in which
their bytes come do not matter, since the reader takes one byte at a time.
-/

namespace EventStream

open Json (Printable)

variable {r : Reader} {text : List Char}

/-- A printable character is written without control bytes. -/
theorem le_of_mem_utf8EncodeChar {c : Char} {b : UInt8} (hc : 32 ≤ c.toNat)
    (hb : b ∈ String.utf8EncodeChar c) : 32 ≤ b.toNat := by
  have hc : 32 ≤ c.val.toNat := hc
  have hbig : ∀ n k : Nat, 32 ≤ k → k + n < 256 → 32 ≤ (UInt8.ofNat (n + k)).toNat := by
    intro n k hk hlt
    rw [UInt8.toNat_ofNat', Nat.mod_eq_of_lt (by omega)]
    omega
  rw [String.utf8EncodeChar] at hb
  split at hb
  · rw [List.mem_singleton.mp hb, UInt8.toNat_ofNat', Nat.mod_eq_of_lt (by omega)]
    exact hc
  · split at hb
    · simp only [List.mem_cons, List.not_mem_nil, or_false] at hb
      rcases hb with rfl | rfl
      · exact hbig _ 192 (by omega) (by omega)
      · exact hbig _ 128 (by omega) (by omega)
    · split at hb
      · simp only [List.mem_cons, List.not_mem_nil, or_false] at hb
        rcases hb with rfl | rfl | rfl
        · exact hbig _ 224 (by omega) (by omega)
        · exact hbig _ 128 (by omega) (by omega)
        · exact hbig _ 128 (by omega) (by omega)
      · simp only [List.mem_cons, List.not_mem_nil, or_false] at hb
        rcases hb with rfl | rfl | rfl | rfl
        · exact hbig _ 240 (by omega) (by omega)
        · exact hbig _ 128 (by omega) (by omega)
        · exact hbig _ 128 (by omega) (by omega)
        · exact hbig _ 128 (by omega) (by omega)

theorem le_of_mem_encode (htext : Printable text) {b : UInt8} (hb : b ∈ Utf8.encode text) : 32 ≤ b.toNat := by
  obtain ⟨c, hc, hb⟩ := List.mem_flatMap.mp hb
  exact le_of_mem_utf8EncodeChar (htext c hc) hb

theorem encode_append (text text' : List Char) :
    Utf8.encode (text ++ text') = Utf8.encode text ++ Utf8.encode text' := List.flatMap_append

namespace Reader

theorem read_append (bytes bytes' : List UInt8) :
    r.read (bytes ++ bytes') =
      (((r.read bytes).1.read bytes').1, (r.read bytes).2 ++ ((r.read bytes).1.read bytes').2) := by
  induction bytes generalizing r with
  | nil => rfl
  | cons b bytes ih =>
    rw [List.cons_append, read, read, ih]
    simp only [List.append_assoc]

/-- The messages come as the bytes do. -/
theorem read_prefix {bytes bytes' : List UInt8} (h : bytes <+: bytes') :
    (r.read bytes).2 <+: (r.read bytes').2 := by
  obtain ⟨rest, rfl⟩ := h
  rw [read_append]
  exact List.prefix_append _ _

/-- The bytes of a line before its end. -/
theorem read_within (hcr : r.cr = false) {bytes : List UInt8} (hbytes : ∀ b ∈ bytes, 32 ≤ b.toNat) :
    r.read bytes = ({ r with line := r.line ++ bytes }, []) := by
  induction bytes generalizing r with
  | nil => rw [List.append_nil]; rfl
  | cons b bytes ih =>
    obtain ⟨hb, hbytes⟩ := List.forall_mem_cons.mp hbytes
    have hlf : b ≠ 10 := by
      rintro rfl
      exact absurd hb (by decide)
    have hend : b ≠ 13 := by
      rintro rfl
      exact absurd hb (by decide)
    have hbyte : r.byte b = ({ r with line := r.line ++ [b], cr := false }, none) := by
      rw [byte, if_neg fun h => hlf h.1, if_neg fun h => h.elim hlf hend]
    rw [read, hbyte]
    dsimp only
    rw [ih rfl hbytes]
    simp [hcr]

theorem byte_end : r.byte 10 =
    if r.cr = true then ({ r with cr := false }, none)
    else ({ (r.endLine (Utf8.decode r.line)).1 with line := [], cr := false },
      (r.endLine (Utf8.decode r.line)).2) := by
  rw [byte]
  by_cases hcr : r.cr = true
  · rw [if_pos ⟨rfl, hcr⟩, if_pos hcr]
  · rw [if_neg fun h => hcr h.2, if_neg hcr, if_pos (.inl rfl)]
    rfl

/-- A whole line. -/
theorem read_line (hcr : r.cr = false) (hline : r.line = []) (htext : Printable text) :
    r.read (Utf8.encode text ++ [10]) =
      ({ (endLine { r with line := Utf8.encode text } text).1 with line := [], cr := false },
        (endLine { r with line := Utf8.encode text } text).2.toList) := by
  have hbytes : ∀ b ∈ Utf8.encode text, 32 ≤ b.toNat := fun b hb => le_of_mem_encode htext hb
  rw [read_append, read_within hcr hbytes, hline, List.nil_append, List.nil_append]
  simp only [read, byte_end, hcr, Utf8.decode_encode, Bool.false_eq_true, if_false, List.append_nil]

/-- The line of a comment says nothing. -/
theorem read_comment (htext : Printable text) :
    start.read (Frame.comment text).bytes = (start, []) := by
  have hfirst : Printable (':' :: ' ' :: text) := (htext.cons (by decide)).cons (by decide)
  have hbytes : (Frame.comment text).bytes =
      (Utf8.encode (':' :: ' ' :: text) ++ [10]) ++ (Utf8.encode [] ++ [10]) := by
    show Utf8.encode (':' :: ' ' :: text ++ ['\n', '\n']) = _
    rw [encode_append, List.append_assoc]
    rfl
  rw [hbytes, read_append, read_line rfl rfl hfirst]
  rfl

theorem endLine_data : r.endLine ("data: ".toList ++ text) =
    ({ r with data := r.data ++ text ++ ['\n'] }, none) := rfl

theorem dispatch_data (text : List Char) : dispatch ⟨[], false, text ++ ['\n'], []⟩ =
    (start, some ⟨"message".toList, text⟩) := by
  rw [dispatch, if_neg (List.append_ne_nil_of_right_ne_nil _ (List.cons_ne_nil _ _)), List.dropLast_concat]
  rfl

/-- The empty line after a line of data. -/
theorem read_empty (text : List Char) :
    read ⟨[], false, text ++ ['\n'], []⟩ (Utf8.encode [] ++ [10]) = (start, [⟨"message".toList, text⟩]) := by
  rw [read_line rfl rfl fun d hd => by cases hd]
  have hempty : endLine ⟨[], false, text ++ ['\n'], []⟩ [] = (start, some ⟨"message".toList, text⟩) :=
    dispatch_data text
  show ({ (endLine ⟨[], false, text ++ ['\n'], []⟩ []).1 with line := [], cr := false },
    (endLine ⟨[], false, text ++ ['\n'], []⟩ []).2.toList) = _
  rw [hempty]
  rfl

/-- The line of data is kept for the message that the empty line dispatches. -/
theorem read_data (htext : Printable text) :
    start.read (Frame.data text).bytes = (start, [⟨"message".toList, text⟩]) := by
  have hfield : Printable ("data: ".toList) := Json.printable_of_all (by decide)
  have hbytes : (Frame.data text).bytes =
      (Utf8.encode ("data: ".toList ++ text) ++ [10]) ++ (Utf8.encode [] ++ [10]) := by
    show Utf8.encode ("data: ".toList ++ text ++ ['\n', '\n']) = _
    rw [encode_append, List.append_assoc]
    rfl
  rw [hbytes, read_append, read_line rfl rfl (hfield.append htext), endLine_data]
  exact congrArg (fun p : Reader × List Message => (p.1, [] ++ p.2)) (read_empty text)

end Reader

variable {frames frames' : List Frame}

/-- Frames are read one after the other. -/
theorem read_frames (hframes : ∀ frame ∈ frames, Printable frame.content) :
    Reader.start.read (frames.flatMap Frame.bytes) = (Reader.start, frames.filterMap Frame.message) := by
  induction frames with
  | nil => rfl
  | cons frame frames ih =>
    obtain ⟨hframe, hframes⟩ := List.forall_mem_cons.mp hframes
    have hfirst : Reader.start.read frame.bytes = (Reader.start, frame.message.toList) := by
      cases frame with
      | comment text => exact Reader.read_comment hframe
      | data text => exact Reader.read_data hframe
    rw [List.flatMap_cons, Reader.read_append, hfirst, ih hframes, List.filterMap_cons]
    cases frame.message <;> rfl

end EventStream
