import SupplyChain.Resp.RawRespClient

/-!
# Proofs: parsing a reply

Where a buffer holds a whole reply, the reply is parsed and exactly its bytes are consumed, whatever
follows; where it ends inside the reply, more bytes are asked for.
-/

namespace SupplyChain

open Resp

variable {buf line body rest : List UInt8} {type : Char} {offset fuel : Nat}

theorem prefix_append_cases {l l₁ l₂ : List UInt8} (h : l <+: l₁ ++ l₂) :
    l <+: l₁ ∨ ∃ l', l = l₁ ++ l' ∧ l' <+: l₂ := by
  rcases List.prefix_or_prefix_of_prefix h (List.prefix_append l₁ l₂) with hleft | ⟨l', rfl⟩
  · exact Or.inl hleft
  · exact Or.inr ⟨l', rfl, (List.prefix_append_right_inj l₁).mp h⟩

/-! ## Lines -/

theorem findCRLF_line (h : CR ∉ line) : findCRLF (line ++ CR :: LF :: rest) = some line.length := by
  induction line with
  | nil => rfl
  | cons b line ih =>
    obtain ⟨hb, hline⟩ := List.ne_and_not_mem_of_not_mem_cons h
    rw [List.cons_append, findCRLF, if_neg fun hc => hb hc.1.symm, ih hline]
    rfl

/-- The end of a line is not found before its LF is there. -/
theorem findCRLF_cut (h : CR ∉ line) {part : List UInt8} (hpart : part <+: line ++ [CR]) :
    findCRLF part = none := by
  induction part generalizing line with
  | nil => rfl
  | cons b part ih =>
    cases line with
    | nil =>
      obtain ⟨rfl, hnil⟩ := List.cons_prefix_cons.mp hpart
      rw [List.prefix_nil.mp hnil]
      rfl
    | cons b' line =>
      obtain ⟨hb, hline⟩ := List.ne_and_not_mem_of_not_mem_cons h
      obtain ⟨rfl, hrest⟩ := List.cons_prefix_cons.mp hpart
      rw [findCRLF, if_neg fun hc => hb hc.1.symm, ih hline hrest]
      rfl

theorem frame_append (type : Char) (line body rest : List UInt8) :
    frame type line body ++ rest = frame type line (body ++ rest) := by
  simp [frame]

theorem length_frame (type : Char) (line body : List UInt8) :
    (frame type line body).length = line.length + body.length + 3 := by
  simp only [frame, List.length_cons, List.length_append]
  omega

/-- A frame that ends early has no line, or the whole line and a part of the body. -/
theorem prefix_frame {part : List UInt8} (h : part <+: frame type line body) :
    part = [] ∨ (∃ part', part = type.toUInt8 :: part' ∧ part' <+: line ++ [CR]) ∨
      ∃ body', part = frame type line body' ∧ body' <+: body := by
  cases part with
  | nil => exact Or.inl rfl
  | cons b part =>
    obtain ⟨rfl, hpart⟩ := List.cons_prefix_cons.mp h
    have hsplit : line.append (CR :: LF :: body) = (line ++ [CR]) ++ LF :: body := by simp
    rw [hsplit] at hpart
    rcases prefix_append_cases hpart with hline | ⟨body', rfl, hbody⟩
    · exact Or.inr (Or.inl ⟨part, rfl, hline⟩)
    · cases body' with
      | nil => exact Or.inr (Or.inl ⟨_, rfl, by simp⟩)
      | cons b body' =>
        obtain ⟨rfl, hrest⟩ := List.cons_prefix_cons.mp hbody
        exact Or.inr (Or.inr ⟨body', by simp [frame], hrest⟩)

/-- Where a frame stands in the buffer, and what is around the end of its line. -/
theorem frame_read (hcr : CR ∉ line) (hat : buf.drop offset = frame type line body) :
    buf[offset]? = some type.toUInt8 ∧ indexOfCRLF buf (offset + 1) = some (offset + 1 + line.length) ∧
      subarray buf (offset + 1) (offset + 1 + line.length) = line ∧
      buf.drop (offset + line.length + 3) = body ∧
      buf.length = offset + line.length + 3 + body.length := by
  have hlength : buf.length = offset + line.length + 3 + body.length := by
    have hsize := congrArg List.length hat
    rw [List.length_drop, length_frame] at hsize
    omega
  have hbyte : buf[offset]? = some type.toUInt8 := by
    rw [← Nat.add_zero offset, ← List.getElem?_drop, hat]
    rfl
  have hline : buf.drop (offset + 1) = line ++ CR :: LF :: body := by
    rw [← List.drop_drop, hat]
    rfl
  have hend : indexOfCRLF buf (offset + 1) = some (offset + 1 + line.length) := by
    rw [indexOfCRLF, hline, findCRLF_line hcr]
    rfl
  have htext : subarray buf (offset + 1) (offset + 1 + line.length) = line := by
    rw [subarray, ← List.take_drop, hline, List.take_left]
  have hstart : offset + line.length + 3 = offset + 1 + line.length + 2 := by omega
  refine ⟨hbyte, hend, htext, ?_, hlength⟩
  rw [hstart, Nat.add_assoc, ← List.drop_drop, hline, ← List.drop_drop, List.drop_left]
  rfl

/-- Without the end of its line, a frame has no line. -/
theorem frame_cut (hcr : CR ∉ line) {part : List UInt8} (hpart : part <+: line ++ [CR]) {byte : UInt8}
    (hat : buf.drop offset = byte :: part) :
    buf[offset]? = some byte ∧ indexOfCRLF buf (offset + 1) = none := by
  have hline : buf.drop (offset + 1) = part := by
    rw [← List.drop_drop, hat]
    rfl
  constructor
  · rw [← Nat.add_zero offset, ← List.getElem?_drop, hat]
    rfl
  · rw [indexOfCRLF, hline, findCRLF_cut hcr hpart]
    rfl

theorem getElem?_of_drop_nil (hat : buf.drop offset = []) : buf[offset]? = none := by
  rw [← Nat.add_zero offset, ← List.getElem?_drop, hat]
  rfl

/-- A frame in the buffer is read up to the end of its line. -/
theorem tryParseReply_frame (fuel : Nat) (hcr : CR ∉ line) (hat : buf.drop offset = frame type line body)
    (htype : Char.ofNat type.toUInt8.toNat = type) :
    tryParseReply (fuel + 1) buf offset = parseBody (tryParseReply fuel buf) buf offset type
        (Utf8.decode line) (offset + line.length + 3) ∧
      buf.drop (offset + line.length + 3) = body ∧
      buf.length = offset + line.length + 3 + body.length := by
  obtain ⟨hbyte, hend, htext, hbody, hlength⟩ := frame_read hcr hat
  have hstart : offset + 1 + line.length + 2 = offset + line.length + 3 := by omega
  refine ⟨?_, hbody, hlength⟩
  rw [tryParseReply, hbyte]
  dsimp only
  rw [hend]
  dsimp only
  rw [htext, htype, hstart]

/-- Without the end of its line, nothing of a frame is read. -/
theorem tryParseReply_cut (hcr : CR ∉ line) {part : List UInt8} (hpart : part <+: line ++ [CR])
    {byte : UInt8} (hat : buf.drop offset = byte :: part) : tryParseReply fuel buf offset = .more := by
  cases fuel with
  | zero => rfl
  | succ fuel =>
    obtain ⟨hbyte, hend⟩ := frame_cut hcr hpart hat
    rw [tryParseReply, hbyte]
    dsimp only
    rw [hend]

theorem tryParseReply_empty (hat : buf.drop offset = []) : tryParseReply fuel buf offset = .more := by
  cases fuel with
  | zero => rfl
  | succ fuel => rw [tryParseReply, getElem?_of_drop_nil hat]

/-! ## The kinds of replies -/

section Bodies

variable {parse : Nat → Parsed Value} {text : List Char} {start : Nat}

theorem parseBody_integer (sign : Sign) (zeros n : Nat) :
    parseBody parse buf offset ':' (Utf8.decode (numeral sign zeros n)) start =
      .parsed (Reply.integer sign zeros n).value (start - offset) := by
  simp [parseBody, parseNumber_numeral, Reply.value]

theorem parseBody_nullBulk (h : Decimal.parseNumber text = some (.negSucc 0)) :
    parseBody parse buf offset '$' text start = .parsed .null (start - offset) := by
  simp [parseBody, h]
  rfl

theorem parseBody_bulk {len : Nat} (h : Decimal.parseNumber text = some (len : Int)) :
    parseBody parse buf offset '$' text start =
      if buf.length < start + len + 2 then .more
      else .parsed (.text (Utf8.decode (subarray buf start (start + len))))
        (start + len + 2 - offset) := by
  simp [parseBody, h]

theorem parseBody_nullArray (h : Decimal.parseNumber text = some (.negSucc 0)) :
    parseBody parse buf offset '*' text start = .parsed .null (start - offset) := by
  simp [parseBody, h]
  rfl

theorem parseBody_array_whole {count cursor : Nat} {values : List Value}
    (h : Decimal.parseNumber text = some (count : Int))
    (hitems : parseItems parse count start [] = .parsed values cursor) :
    parseBody parse buf offset '*' text start = .parsed (.array values) (cursor - offset) := by
  simp [parseBody, h, hitems]

theorem parseBody_array_cut {count : Nat} (h : Decimal.parseNumber text = some (count : Int))
    (hitems : parseItems parse count start [] = .more) :
    parseBody parse buf offset '*' text start = .more := by
  simp [parseBody, h, hitems]

end Bodies

/-! ## Replies -/

/-- What the items of an array come to, when each of them is parsed where it stands whole. -/
theorem parseItems_whole {items : List Reply} (parse : Nat → Parsed Value) (values : List Value)
    (hparse : ∀ item ∈ items, ∀ cursor rest, buf.drop cursor = item.encode ++ rest →
      parse cursor = .parsed item.value item.encode.length) {cursor : Nat}
    (hat : buf.drop cursor = Reply.encodeAll items ++ rest) :
    parseItems parse items.length cursor values =
      .parsed (values ++ Reply.values items) (cursor + (Reply.encodeAll items).length) := by
  induction items generalizing cursor values with
  | nil => simp [parseItems, Reply.values, Reply.encodeAll]
  | cons item items ih =>
    rw [Reply.encodeAll, List.append_assoc] at hat
    have hnext : buf.drop (cursor + item.encode.length) = Reply.encodeAll items ++ rest := by
      rw [← List.drop_drop, hat, List.drop_left]
    rw [List.length_cons, parseItems, hparse item List.mem_cons_self cursor _ hat]
    dsimp only
    rw [ih _ (fun i hi => hparse i (List.mem_cons_of_mem _ hi)) hnext, Reply.encodeAll, Reply.values,
      List.length_append, Nat.add_assoc, List.append_assoc, List.singleton_append]

/-- When the buffer ends within the items, one of them is not parsed. -/
theorem parseItems_cut {items : List Reply} (parse : Nat → Parsed Value) (values : List Value)
    (hparse : ∀ item ∈ items, ∀ cursor rest, item.encode.length ≤ fuel →
      buf.drop cursor = item.encode ++ rest → parse cursor = .parsed item.value item.encode.length)
    (hcut : ∀ item ∈ items, ∀ cursor, (buf.drop cursor).length ≤ fuel →
      buf.drop cursor <+: item.encode → buf.drop cursor ≠ item.encode → parse cursor = .more)
    {cursor : Nat} (hfuel : (buf.drop cursor).length ≤ fuel)
    (hat : buf.drop cursor <+: Reply.encodeAll items) (hne : buf.drop cursor ≠ Reply.encodeAll items) :
    parseItems parse items.length cursor values = .more := by
  induction items generalizing cursor values with
  | nil => exact absurd (List.prefix_nil.mp hat) hne
  | cons item items ih =>
    have hwhole : ∀ part, buf.drop cursor = item.encode ++ part → part <+: Reply.encodeAll items →
        part ≠ Reply.encodeAll items →
        parseItems parse (item :: items).length cursor values = .more := by
      intro part heq hpart hpartne
      have hnext : buf.drop (cursor + item.encode.length) = part := by
        rw [← List.drop_drop, heq, List.drop_left]
      have hlength := congrArg List.length heq
      rw [List.length_append] at hlength
      rw [List.length_cons, parseItems,
        hparse item List.mem_cons_self cursor part (by omega) heq]
      exact ih _ (fun i hi => hparse i (List.mem_cons_of_mem _ hi))
        (fun i hi => hcut i (List.mem_cons_of_mem _ hi)) (by rw [hnext]; omega)
        (by rw [hnext]; exact hpart) (by rw [hnext]; exact hpartne)
    rw [Reply.encodeAll] at hat hne
    rcases prefix_append_cases hat with hitem | ⟨part, heq, hpart⟩
    · by_cases hall : buf.drop cursor = item.encode
      · refine hwhole [] (by rw [hall, List.append_nil]) (List.nil_prefix) fun hnil => hne ?_
        rw [hall, ← hnil, List.append_nil]
      · rw [List.length_cons, parseItems, hcut item List.mem_cons_self cursor hfuel hitem hall]
    · exact hwhole part heq hpart fun hpartne => hne (by rw [heq, hpartne])

/-- A reply that is a line. -/
theorem tryParseReply_line {value : Value} (hcr : CR ∉ line)
    (htype : Char.ofNat type.toUInt8.toNat = type)
    (hline : ∀ parse start, parseBody parse buf offset type (Utf8.decode line) start =
      .parsed value (start - offset)) (hat : buf.drop offset = frame type line [] ++ rest) :
    tryParseReply (fuel + 1) buf offset = .parsed value (frame type line []).length := by
  rw [frame_append, List.nil_append] at hat
  obtain ⟨hparse, -, -⟩ := tryParseReply_frame fuel hcr hat htype
  rw [hparse, hline, length_frame, List.length_nil]
  congr 1
  omega

theorem decode_length (zeros n : Nat) (h : n < 2 ^ 53) :
    Decimal.parseNumber (Utf8.decode (numeral .unsigned zeros n)) = some (n : Int) := by
  rw [parseNumber_numeral, Decimal.nearestDouble_of_lt h]
  rfl

theorem decode_minusOne :
    Decimal.parseNumber (Utf8.decode (numeral .minus 0 1)) = some (.negSucc 0) := by
  rw [parseNumber_numeral, Decimal.nearestDouble_of_lt (by decide)]
  rfl

theorem length_encode_le {items : List Reply} {item : Reply} (h : item ∈ items) :
    item.encode.length ≤ (Reply.encodeAll items).length := by
  induction items with
  | nil => cases h
  | cons item' items ih =>
    rw [Reply.encodeAll, List.length_append]
    rcases List.mem_cons.mp h with rfl | hrest
    · exact Nat.le_add_right _ _
    · exact Nat.le_add_left_of_le (ih hrest)

/-- A reply that is all there is parsed, and its bytes are consumed. -/
theorem tryParseReply_whole {reply : Reply} (hreply : reply.WellFormed)
    (hfuel : reply.encode.length ≤ fuel) (hat : buf.drop offset = reply.encode ++ rest) :
    tryParseReply fuel buf offset = .parsed reply.value reply.encode.length := by
  induction fuel generalizing reply offset rest with
  | zero => cases hreply <;> simp [Reply.encode, frame] at hfuel
  | succ fuel ih =>
    cases hreply with
    | simple hcr hlf => exact tryParseReply_line hcr rfl (fun _ _ => rfl) hat
    | error hcr hlf => exact tryParseReply_line hcr rfl (fun _ _ => rfl) hat
    | @integer sign zeros n hlow hhigh =>
      exact tryParseReply_line (cr_notMem_numeral sign zeros n) rfl
        (fun _ _ => parseBody_integer sign zeros n) hat
    | nullBulk =>
      exact tryParseReply_line (cr_notMem_numeral .minus 0 1) rfl
        (fun _ _ => parseBody_nullBulk decode_minusOne) hat
    | nullArray =>
      exact tryParseReply_line (cr_notMem_numeral .minus 0 1) rfl
        (fun _ _ => parseBody_nullArray decode_minusOne) hat
    | @bulk zeros content hlength =>
      rw [Reply.encode, frame_append] at hat
      obtain ⟨hparse, hbody, hsize⟩ :=
        tryParseReply_frame fuel (cr_notMem_numeral .unsigned zeros content.length) hat rfl
      have hcontent : ∀ start, buf.drop start = content ++ [CR, LF] ++ rest →
          subarray buf start (start + content.length) = content := by
        intro start hstart
        rw [subarray, ← List.take_drop, hstart, List.append_assoc, List.take_left]
      simp only [List.length_append, List.length_cons, List.length_nil] at hsize
      rw [hparse, parseBody_bulk (decode_length zeros content.length hlength), if_neg (by omega),
        hcontent _ hbody, Reply.encode, length_frame, Reply.value]
      congr 1
      simp only [List.length_append, List.length_cons, List.length_nil]
      omega
    | @array zeros items hlength hitems =>
      rw [Reply.encode, frame_append] at hat
      obtain ⟨hparse, hbody, -⟩ :=
        tryParseReply_frame fuel (cr_notMem_numeral .unsigned zeros items.length) hat rfl
      rw [Reply.encode, length_frame] at hfuel
      have hloop := parseItems_whole (tryParseReply fuel buf) []
        (fun item hi cursor rest hcursor => ih (hitems item hi)
          (Nat.le_trans (length_encode_le hi) (by omega)) hcursor) hbody
      rw [hparse, parseBody_array_whole (decode_length zeros items.length hlength) hloop,
        Reply.encode, length_frame, Reply.value]
      dsimp only [List.nil_append]
      congr 1
      omega

/-- A buffer that ends within a frame: only the end of its body makes a difference. -/
theorem tryParseReply_within (hcr : CR ∉ line) (hat : buf.drop offset <+: frame type line body)
    (hne : buf.drop offset ≠ frame type line body)
    (hbody : ∀ body', buf.drop offset = frame type line body' → body' <+: body → body' ≠ body →
      tryParseReply fuel buf offset = .more) : tryParseReply fuel buf offset = .more := by
  rcases prefix_frame hat with hempty | ⟨part, hpart, hline⟩ | ⟨body', hframe, hrest⟩
  · exact tryParseReply_empty hempty
  · exact tryParseReply_cut hcr hline hpart
  · exact hbody body' hframe hrest fun heq => hne (by rw [hframe, heq])

theorem tryParseReply_line_within (hcr : CR ∉ line) (hat : buf.drop offset <+: frame type line [])
    (hne : buf.drop offset ≠ frame type line []) : tryParseReply fuel buf offset = .more :=
  tryParseReply_within hcr hat hne fun _ _ hnil hne' => absurd (List.prefix_nil.mp hnil) hne'

/-- A reply that is not all there is not parsed. -/
theorem tryParseReply_strict {reply : Reply} (hreply : reply.WellFormed)
    (hfuel : (buf.drop offset).length ≤ fuel) (hat : buf.drop offset <+: reply.encode)
    (hne : buf.drop offset ≠ reply.encode) : tryParseReply fuel buf offset = .more := by
  induction fuel generalizing reply offset with
  | zero => rfl
  | succ fuel ih =>
    cases hreply with
    | simple hcr hlf => exact tryParseReply_line_within hcr hat hne
    | error hcr hlf => exact tryParseReply_line_within hcr hat hne
    | @integer sign zeros n hlow hhigh =>
      exact tryParseReply_line_within (cr_notMem_numeral sign zeros n) hat hne
    | nullBulk => exact tryParseReply_line_within (cr_notMem_numeral .minus 0 1) hat hne
    | nullArray => exact tryParseReply_line_within (cr_notMem_numeral .minus 0 1) hat hne
    | @bulk zeros content hlength =>
      have hcr := cr_notMem_numeral .unsigned zeros content.length
      refine tryParseReply_within hcr hat hne fun body' hframe hrest hne' => ?_
      obtain ⟨hparse, -, hsize⟩ := tryParseReply_frame fuel hcr hframe rfl
      have hshort : body'.length < content.length + 2 := by
        have hle := hrest.length_le
        have hlt : body'.length ≠ (content ++ [CR, LF]).length := fun heq =>
          hne' (hrest.eq_of_length heq)
        simp only [List.length_append, List.length_cons, List.length_nil] at hle hlt
        omega
      rw [hparse, parseBody_bulk (decode_length zeros content.length hlength), if_pos (by omega)]
    | @array zeros items hlength hitems =>
      have hcr := cr_notMem_numeral .unsigned zeros items.length
      refine tryParseReply_within hcr hat hne fun body' hframe hrest hne' => ?_
      obtain ⟨hparse, hbody, -⟩ := tryParseReply_frame fuel hcr hframe rfl
      rw [hframe, length_frame] at hfuel
      have hloop := parseItems_cut (tryParseReply fuel buf) []
        (fun item hi cursor rest hle hcursor => tryParseReply_whole (hitems item hi) hle hcursor)
        (fun item hi cursor hle hpart hpartne => ih (hitems item hi) hle hpart hpartne)
        (by rw [hbody]; omega) (by rw [hbody]; exact hrest) (by rw [hbody]; exact hne')
      rw [hparse, parseBody_array_cut (decode_length zeros items.length hlength) hloop]

end SupplyChain
