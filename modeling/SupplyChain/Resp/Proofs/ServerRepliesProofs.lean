import SupplyChain.Resp.Proofs.AnyBytesProofs
import SupplyChain.Resp.Proofs.RawRespClientProofs

/-!
# Proofs: the replies of a server are read alike

On whole replies and on the beginning of one, doubles are exact, and the parser and the client of
`SupplyChain.Resp.AnyBytes` do what those of `SupplyChain.Resp.RawRespClient` do.
-/

namespace SupplyChain.AnyBytes

open Resp (Reply Sign CR LF frame numeral cr_notMem_numeral)
open Double (ofInt)

mutual

/-- The value of a reply, with its numbers as doubles. -/
def ofValue : Resp.Value → JsValue
  | .text chars => .text chars
  | .error message => .error message
  | .number n => .number ((n.map ofInt).getD .nan)
  | .null => .null
  | .array items => .array (ofValues items)

/-- `ofValue`, of each value. -/
def ofValues : List Resp.Value → List JsValue
  | [] => []
  | value :: values => ofValue value :: ofValues values

end

variable {buf line body rest : List UInt8} {type : Char} {o fuel : Nat}

/-! ## Numerals -/

theorem round_natCast {n : Nat} (h : n ≤ 2 ^ 63) :
    Double.round (n : ℚ) = ofInt (Decimal.nearestDouble n) := by
  have hbound : ((Decimal.nearestDouble n : Nat) : ℚ) < 2 ^ 1024 := by
    have hle : Decimal.nearestDouble n ≤ 2 ^ 64 := by
      have := Decimal.nearestDouble_le n
      omega
    have hcast : ((Decimal.nearestDouble n : Nat) : ℚ) ≤ 2 ^ 64 := by exact_mod_cast hle
    exact lt_of_le_of_lt hcast (pow_lt_pow_right₀ one_lt_two (by omega))
  rw [Double.round, Double.rounded_natCast, Double.ofRat_of_lt, ofInt, Int.cast_natCast]
  rw [abs_of_nonneg (Nat.cast_nonneg _)]
  exact hbound

theorem Number_numeral (sign : Sign) (zeros : Nat) {n : Nat} (h : n ≤ 2 ^ 63) :
    Double.Number (Utf8.decode (numeral sign zeros n)) = ofInt (sign.apply (Decimal.nearestDouble n)) := by
  have hne := Decimal.numeral_ne_nil zeros n
  have hdigits : ∀ c ∈ Decimal.numeral zeros n, c.isDigit = true :=
    fun c hc => Decimal.isDigit_of_mem_numeral hc
  have hvalue : Double.round ((Nat.ofDigitChars 10 (Decimal.numeral zeros n) 0 : Nat) : ℚ) =
      ofInt (Decimal.nearestDouble n) := by
    rw [Decimal.ofDigitChars_numeral, round_natCast h]
  rw [numeral, Utf8.decode_encode]
  cases sign with
  | unsigned => exact (Double.Number_digits hne hdigits).trans hvalue
  | plus => exact (Double.Number_plus hne hdigits).trans hvalue
  | minus =>
    refine (Double.Number_minus hne hdigits).trans ?_
    rw [hvalue]
    simp [ofInt, Double.neg, Sign.apply]

/-- A length below 2^53 is exact. -/
theorem Number_length (zeros : Nat) {n : Nat} (h : n < 2 ^ 53) :
    Double.Number (Utf8.decode (numeral .unsigned zeros n)) = ofInt n := by
  rw [Number_numeral .unsigned zeros (by omega), Decimal.nearestDouble_of_lt h]
  rfl

theorem Number_minusOne : Double.Number (Utf8.decode (numeral .minus 0 1)) = ofInt (-1) := by
  rw [Number_numeral .minus 0 (by omega), Decimal.nearestDouble_of_lt (by decide)]
  rfl

/-! ## Frames -/

theorem header_frame (hcr : CR ∉ line) (hat : buf.drop o = frame type line body)
    (htype : Char.ofNat type.toUInt8.toNat = type) :
    header buf o = some ⟨type, Utf8.decode line, o + line.length + 3⟩ := by
  obtain ⟨hbyte, hend, htext, -, -⟩ := frame_read hcr hat
  have hstart : o + 1 + line.length + 2 = o + line.length + 3 := by omega
  rw [header, hbyte, hend]
  dsimp only
  rw [htext, htype, hstart]

/-- A header whose line is a length. -/
def lengthHeader (type : Char) (zeros n start : Nat) : Header :=
  ⟨type, Utf8.decode (numeral .unsigned zeros n), start⟩

theorem lengthHeader_frame {zeros n : Nat} (hat : buf.drop o = frame type (numeral .unsigned zeros n) body)
    (htype : Char.ofNat type.toUInt8.toNat = type) : header buf o =
      some (lengthHeader type zeros n (o + (numeral .unsigned zeros n).length + 3)) :=
  header_frame (cr_notMem_numeral .unsigned zeros n) hat htype

section LengthHeader

variable {zeros n start : Nat}

theorem number_lengthHeader (h : n < 2 ^ 53) : (lengthHeader type zeros n start).number = ofInt n :=
  Number_length zeros h

theorem number_lengthHeader_ne (h : n < 2 ^ 53) :
    (lengthHeader type zeros n start).number ≠ ofInt (-1) := by
  rw [number_lengthHeader h, Ne, Double.ofInt_inj]
  omega

theorem isBulk_lengthHeader (h : n < 2 ^ 53) : (lengthHeader '$' zeros n start).IsBulk :=
  ⟨rfl, number_lengthHeader_ne h⟩

theorem isArray_lengthHeader (h : n < 2 ^ 53) : (lengthHeader '*' zeros n start).IsArray :=
  ⟨rfl, number_lengthHeader_ne h⟩

theorem bulkEnd_lengthHeader (h : n < 2 ^ 53) :
    (lengthHeader type zeros n start).bulkEnd = bulkEnd start (ofInt n) := by
  rw [Header.bulkEnd, number_lengthHeader h]
  rfl

end LengthHeader

theorem more_of_header_none (hfits : buf.length ≤ MAX_LENGTH) (fuel : Nat) (h : header buf o = none) :
    tryParseReply (fuel + 1) buf (ofInt o) = some .more := by
  rw [tryParseReply_nat hfits, h]

/-! ## Whole replies -/

/-- A reply that is a line. -/
theorem line_whole {h : Header} (fuel : Nat) (hfits : buf.length ≤ MAX_LENGTH) (hcr : CR ∉ line)
    (hat : buf.drop o = frame type line [] ++ rest) (htype : Char.ofNat type.toUInt8.toNat = type)
    (hhead : h = ⟨type, Utf8.decode line, o + line.length + 3⟩) (hline : h.IsLine) :
    tryParseReply (fuel + 1) buf (ofInt o) =
      some (.parsed h.value (ofInt ((frame type line []).length : Int))) := by
  rw [frame_append, List.nil_append] at hat
  have hheader := header_frame hcr hat htype
  rw [← hhead] at hheader
  have hsize : h.start - o = (frame type line []).length := by
    rw [hhead, length_frame]
    dsimp only [List.length_nil]
    omega
  rw [tryParseReply_line fuel hfits hheader hline, hsize]

theorem parseItems_replies {items : List Reply} (parse : Double → Option (Parsed JsValue)) (turns : Nat)
    (values : List JsValue) (hfits : buf.length ≤ MAX_LENGTH)
    (hparse : ∀ item ∈ items, ∀ cursor rest, buf.drop cursor = item.encode ++ rest →
      parse (ofInt (cursor : Nat)) = some (.parsed (ofValue item.value) (ofInt (item.encode.length : Nat))))
    {n cursor : Nat} (hn : n + items.length ≤ MAX_LENGTH) (hcursor : cursor ≤ buf.length)
    (hturns : items.length < turns) (hat : buf.drop cursor = Reply.encodeAll items ++ rest) :
    parseItems parse (ofInt (n + items.length : Nat)) turns (ofInt n) (ofInt cursor) values =
      some (.parsed (values ++ ofValues (Reply.values items))
        (ofInt (cursor + (Reply.encodeAll items).length : Nat))) := by
  induction items generalizing n cursor values turns with
  | nil =>
    obtain ⟨turns, rfl⟩ := Nat.exists_eq_succ_of_ne_zero (Nat.ne_of_gt hturns)
    rw [Nat.succ_eq_add_one, parseItems, if_neg (by simp)]
    simp [Reply.values, ofValues, Reply.encodeAll]
  | cons item items ih =>
    obtain ⟨turns, rfl⟩ := Nat.exists_eq_succ_of_ne_zero (show turns ≠ 0 by omega)
    rw [List.length_cons] at hn hturns
    rw [Reply.encodeAll, List.append_assoc] at hat
    have hnext : buf.drop (cursor + item.encode.length) = Reply.encodeAll items ++ rest := by
      rw [← List.drop_drop, hat, List.drop_left]
    have hwithin : cursor + item.encode.length ≤ buf.length := by
      have hsize := congrArg List.length hat
      rw [List.length_drop, List.length_append] at hsize
      omega
    have hmore : (ofInt (n : Nat)).lt (ofInt (n + (items.length + 1) : Nat)) = true := by
      rw [Double.lt_ofInt, decide_eq_true_eq]
      omega
    have hcount : n + (items.length + 1) = n + 1 + items.length := by omega
    rw [Nat.succ_eq_add_one, List.length_cons, parseItems, if_pos hmore,
      hparse item List.mem_cons_self cursor _ hat]
    dsimp only
    rw [add_one (by omega), add_offset (by omega), hcount,
      ih _ _ (fun i hi => hparse i (List.mem_cons_of_mem _ hi)) (by omega) hwithin (by omega) hnext,
      Reply.encodeAll, Reply.values, ofValues, List.length_append, Nat.add_assoc, List.append_assoc,
      List.singleton_append]

/-- A reply that is all there is parsed, and its bytes are consumed. -/
theorem tryParseReply_reply {reply : Reply} (hreply : reply.WellFormed)
    (hfuel : reply.encode.length ≤ fuel) (hfits : buf.length ≤ MAX_LENGTH)
    (hat : buf.drop o = reply.encode ++ rest) :
    tryParseReply fuel buf (ofInt o) =
      some (.parsed (ofValue reply.value) (ofInt (reply.encode.length : Nat))) := by
  induction fuel generalizing reply o rest with
  | zero => cases hreply <;> simp [Reply.encode, frame] at hfuel
  | succ fuel ih =>
    cases hreply with
    | simple hcr hlf => exact line_whole fuel hfits hcr hat rfl rfl (Or.inl rfl)
    | error hcr hlf => exact line_whole fuel hfits hcr hat rfl rfl (Or.inr (Or.inl rfl))
    | @integer sign zeros n hlow hhigh =>
      have hn : n ≤ 2 ^ 63 := by
        cases sign <;> simp only [Sign.apply] at hlow hhigh <;> omega
      have hwhole := line_whole fuel hfits (cr_notMem_numeral sign zeros n) hat rfl rfl
        (Or.inr (Or.inr (Or.inl rfl)))
      rw [Reply.encode, hwhole]
      simp [Header.value, Header.number, Number_numeral sign zeros hn, Reply.value, ofValue]
    | nullBulk =>
      exact line_whole fuel hfits (cr_notMem_numeral .minus 0 1) hat rfl rfl
        (Or.inr (Or.inr (Or.inr ⟨Or.inl rfl, Number_minusOne⟩)))
    | nullArray =>
      exact line_whole fuel hfits (cr_notMem_numeral .minus 0 1) hat rfl rfl
        (Or.inr (Or.inr (Or.inr ⟨Or.inr rfl, Number_minusOne⟩)))
    | @bulk zeros content hlength =>
      rw [Reply.encode, frame_append] at hat
      have hheader := lengthHeader_frame hat rfl
      obtain ⟨-, -, -, hbody, hsize⟩ := frame_read (cr_notMem_numeral .unsigned zeros content.length) hat
      simp only [List.length_append, List.length_cons, List.length_nil] at hsize
      rw [Reply.encode, length_frame]
      generalize hline : (numeral .unsigned zeros content.length).length = line at hheader hbody hsize
      generalize hstart : o + line + 3 = start at hheader hbody hsize
      have hstop : (ofInt (start : Nat)).add (ofInt content.length) = ofInt (start + content.length : Nat) :=
        add_offset (by omega)
      have hend : bulkEnd start (ofInt content.length) = ofInt (start + content.length + 2 : Nat) := by
        rw [bulkEnd, hstop]
        exact add_offset (m := 2) (by omega)
      have hthere : (length buf).lt (ofInt (start + content.length + 2 : Nat)) = false := by
        rw [length, Double.lt_ofInt, decide_eq_false_iff_not]
        omega
      have hcontent : slice buf (ofInt start) (ofInt (start + content.length : Nat)) = content := by
        rw [slice, Double.index_ofInt, Double.index_ofInt, Nat.min_eq_left (by omega),
          Nat.min_eq_left (by omega), subarray, ← List.take_drop, hbody, List.append_assoc, List.take_left]
      have hstart' : (lengthHeader '$' zeros content.length start).start = start := rfl
      have hconsumed : start + content.length + 2 - o = line + (content ++ [CR, LF]).length + 3 := by
        simp only [List.length_append, List.length_cons, List.length_nil]
        omega
      rw [tryParseReply_bulk fuel hfits hheader (isBulk_lengthHeader hlength), bulkEnd_lengthHeader hlength,
        number_lengthHeader hlength, hend, hthere, if_neg Bool.false_ne_true, hstart', hstop, hcontent,
        sub_offset (by omega) (by omega), hconsumed, Reply.value, ofValue]
    | @array zeros items hlength hitems =>
      rw [Reply.encode, frame_append] at hat
      have hheader := lengthHeader_frame hat rfl
      obtain ⟨-, -, -, hbody, hsize⟩ := frame_read (cr_notMem_numeral .unsigned zeros items.length) hat
      rw [List.length_append] at hsize
      rw [Reply.encode, length_frame] at hfuel ⊢
      have hcount := RawRespClient.length_le_encodeAll hitems
      generalize hline : (numeral .unsigned zeros items.length).length = line at hfuel hheader hbody hsize
      generalize hstart : o + line + 3 = start at hheader hbody hsize
      have hloop := parseItems_replies (n := 0) (tryParseReply fuel buf) fuel [] hfits
        (fun item hi cursor rest hcursor => ih (hitems item hi)
          (Nat.le_trans (length_encode_le hi) (by omega)) hcursor)
        (by omega) (by omega) (by omega) hbody
      rw [Nat.zero_add, ofInt_zero] at hloop
      have hstart' : (lengthHeader '*' zeros items.length start).start = start := rfl
      have hconsumed : start + (Reply.encodeAll items).length - o =
          line + (Reply.encodeAll items).length + 3 := by omega
      rw [tryParseReply_array fuel hfits hheader (isArray_lengthHeader hlength),
        number_lengthHeader hlength, hstart', hloop]
      dsimp only
      rw [List.nil_append, sub_offset (by omega) (by omega), hconsumed, Reply.value, ofValue]

/-! ## Replies that are not all there -/

/-- The end of a bulk string that is beyond the buffer is so in doubles too. -/
theorem lt_bulkEnd {start len : Nat} (hfits : buf.length ≤ MAX_LENGTH) (h : buf.length < start + len + 2) :
    (length buf).lt (bulkEnd start (ofInt len)) = true := by
  unfold MAX_LENGTH at hfits
  have hsum : ((buf.length - 1 : Nat) : ℚ) ≤ Double.rounded ((start : Int) + (len : Int)) := by
    refine Double.le_rounded (n := (buf.length - 1 : Nat)) (by omega) (by omega) ?_
    exact_mod_cast (by omega : buf.length - 1 ≤ start + len)
  have hnonneg : ¬ Double.rounded ((start : Int) + (len : Int)) < 0 :=
    not_lt.mpr (le_trans (Nat.cast_nonneg _) hsum)
  have hend : ((buf.length + 1 : Nat) : ℚ) ≤
      Double.rounded (Double.rounded ((start : Int) + (len : Int)) + (2 : Int)) := by
    refine Double.le_rounded (n := (buf.length + 1 : Nat)) (by omega) (by omega) ?_
    have hle : ((buf.length + 1 : Nat) : ℚ) ≤ (buf.length - 1 : Nat) + 2 := by
      exact_mod_cast (by omega : buf.length + 1 ≤ buf.length - 1 + 2)
    push_cast at hle hsum ⊢
    linarith
  have hlt : ((buf.length : Int) : ℚ) <
      Double.rounded (Double.rounded ((start : Int) + (len : Int)) + (2 : Int)) := by
    push_cast at hend ⊢
    linarith
  unfold bulkEnd
  have hadd : (ofInt (start : Int)).add (ofInt len) =
      Double.ofRat (Double.rounded ((start : Int) + (len : Int))) := rfl
  rw [hadd, length]
  unfold Double.ofRat
  split
  · exact Double.lt_ofRat (by omega) hlt
  · rw [decide_eq_false hnonneg]
    rfl

/-- A buffer that ends within a frame: only the end of its body makes a difference. -/
theorem more_within (fuel : Nat) (hfits : buf.length ≤ MAX_LENGTH) (hcr : CR ∉ line)
    (hat : buf.drop o <+: frame type line body) (hne : buf.drop o ≠ frame type line body)
    (hbody : ∀ body', buf.drop o = frame type line body' → body' <+: body → body' ≠ body →
      tryParseReply (fuel + 1) buf (ofInt o) = some .more) :
    tryParseReply (fuel + 1) buf (ofInt o) = some .more := by
  rcases prefix_frame hat with hempty | ⟨part, hpart, hline⟩ | ⟨body', hframe, hrest⟩
  · exact more_of_header_none hfits fuel (by rw [header, getElem?_of_drop_nil hempty])
  · obtain ⟨hbyte, hend⟩ := frame_cut hcr hline hpart
    exact more_of_header_none hfits fuel (by rw [header, hbyte, hend])
  · exact hbody body' hframe hrest fun heq => hne (by rw [hframe, heq])

theorem more_within_line (fuel : Nat) (hfits : buf.length ≤ MAX_LENGTH) (hcr : CR ∉ line)
    (hat : buf.drop o <+: frame type line []) (hne : buf.drop o ≠ frame type line []) :
    tryParseReply (fuel + 1) buf (ofInt o) = some .more :=
  more_within fuel hfits hcr hat hne fun _ _ hnil hne' => absurd (List.prefix_nil.mp hnil) hne'

/-- When the buffer ends within the items, more bytes are asked for at one of them. -/
theorem parseItems_unfinished {items : List Reply} (turns : Nat) (values : List JsValue)
    (hfits : buf.length ≤ MAX_LENGTH) (hitems : ∀ item ∈ items, item.WellFormed)
    (hcut : ∀ item ∈ items, ∀ cursor, (buf.drop cursor).length < fuel →
      buf.drop cursor <+: item.encode → buf.drop cursor ≠ item.encode →
      tryParseReply fuel buf (ofInt (cursor : Nat)) = some .more)
    {n cursor : Nat} {count : Double} (hn : n ≤ cursor) (hcursor : cursor ≤ buf.length)
    (hcount : ∀ m : Nat, m < n + items.length → (ofInt m).lt count = true)
    (hturns : (buf.drop cursor).length < turns) (hfuel : (buf.drop cursor).length < fuel)
    (hat : buf.drop cursor <+: Reply.encodeAll items) (hne : buf.drop cursor ≠ Reply.encodeAll items) :
    parseItems (tryParseReply fuel buf) count turns (ofInt n) (ofInt cursor) values = some .more := by
  induction items generalizing n cursor values turns with
  | nil => exact absurd (List.prefix_nil.mp hat) hne
  | cons item items ih =>
    obtain ⟨turns, rfl⟩ := Nat.exists_eq_succ_of_ne_zero (show turns ≠ 0 by omega)
    have hmore := hcount n (by rw [List.length_cons]; omega)
    rw [Nat.succ_eq_add_one, parseItems, if_pos hmore]
    have hwhole : ∀ part, buf.drop cursor = item.encode ++ part → part <+: Reply.encodeAll items →
        part ≠ Reply.encodeAll items →
        parseItems (tryParseReply fuel buf) count (turns + 1) (ofInt n) (ofInt cursor) values =
          some .more := by
      intro part heq hpart hpartne
      have hnext : buf.drop (cursor + item.encode.length) = part := by
        rw [← List.drop_drop, heq, List.drop_left]
      have hsize := congrArg List.length heq
      rw [List.length_append, List.length_drop] at hsize
      have hpos := List.length_pos_iff.mpr (encode_ne_nil (hitems item List.mem_cons_self))
      have hshort : part.length < (buf.drop cursor).length := by
        rw [List.length_drop]
        omega
      rw [parseItems, if_pos hmore, tryParseReply_reply (hitems item List.mem_cons_self)
        (by rw [List.length_drop] at hfuel; omega) hfits heq]
      dsimp only
      rw [add_one (by omega), add_offset (by omega)]
      refine ih turns _ (fun i hi => hitems i (List.mem_cons_of_mem _ hi))
        (fun i hi => hcut i (List.mem_cons_of_mem _ hi)) (by omega) (by omega) (fun m hm => ?_)
        (by rw [hnext]; omega) (by rw [hnext]; omega) (by rw [hnext]; exact hpart)
        (by rw [hnext]; exact hpartne)
      exact hcount m (by rw [List.length_cons]; omega)
    rw [parseItems, if_pos hmore] at hwhole
    rw [Reply.encodeAll] at hat hne
    rcases prefix_append_cases hat with hitem | ⟨part, heq, hpart⟩
    · by_cases hall : buf.drop cursor = item.encode
      · refine hwhole [] (by rw [hall, List.append_nil]) List.nil_prefix fun hnil => hne ?_
        rw [hall, ← hnil, List.append_nil]
      · rw [hcut item List.mem_cons_self cursor hfuel hitem hall]
    · exact hwhole part heq hpart fun hpartne => hne (by rw [heq, hpartne])

/-- A reply that is not all there is not parsed. -/
theorem tryParseReply_unfinished {reply : Reply} (hreply : reply.WellFormed)
    (hfuel : (buf.drop o).length < fuel) (hfits : buf.length ≤ MAX_LENGTH)
    (hat : buf.drop o <+: reply.encode) (hne : buf.drop o ≠ reply.encode) :
    tryParseReply fuel buf (ofInt o) = some .more := by
  induction fuel generalizing reply o with
  | zero => omega
  | succ fuel ih =>
    cases hreply with
    | simple hcr hlf => exact more_within_line fuel hfits hcr hat hne
    | error hcr hlf => exact more_within_line fuel hfits hcr hat hne
    | @integer sign zeros n hlow hhigh =>
      exact more_within_line fuel hfits (cr_notMem_numeral sign zeros n) hat hne
    | nullBulk => exact more_within_line fuel hfits (cr_notMem_numeral .minus 0 1) hat hne
    | nullArray => exact more_within_line fuel hfits (cr_notMem_numeral .minus 0 1) hat hne
    | @bulk zeros content hlength =>
      have hcr := cr_notMem_numeral .unsigned zeros content.length
      refine more_within fuel hfits hcr hat hne fun body' hframe hrest hne' => ?_
      obtain ⟨-, -, -, -, hsize⟩ := frame_read hcr hframe
      have hshort : body'.length < content.length + 2 := by
        have hle := hrest.length_le
        have hlt : body'.length ≠ (content ++ [CR, LF]).length := fun heq =>
          hne' (hrest.eq_of_length heq)
        simp only [List.length_append, List.length_cons, List.length_nil] at hle hlt
        omega
      rw [tryParseReply_bulk fuel hfits (lengthHeader_frame hframe rfl) (isBulk_lengthHeader hlength),
        bulkEnd_lengthHeader hlength, lt_bulkEnd hfits (by omega), if_pos rfl]
    | @array zeros items hlength hitems =>
      have hcr := cr_notMem_numeral .unsigned zeros items.length
      refine more_within fuel hfits hcr hat hne fun body' hframe hrest hne' => ?_
      have hheader := lengthHeader_frame hframe rfl
      obtain ⟨-, -, -, hbody, hsize⟩ := frame_read hcr hframe
      rw [hframe, length_frame] at hfuel
      generalize hstart : o + (numeral .unsigned zeros items.length).length + 3 = start at hheader hbody hsize
      have hloop : parseItems (tryParseReply fuel buf) (ofInt items.length) fuel (ofInt (0 : Nat))
          (ofInt start) [] = some .more := by
        refine parseItems_unfinished fuel [] hfits hitems
          (fun item hi cursor hle hpart hpartne => ih (hitems item hi) hle hpart hpartne)
          (Nat.zero_le _) (by omega) (fun m hm => ?_) (by rw [hbody]; omega) (by rw [hbody]; omega)
          (by rw [hbody]; exact hrest) (by rw [hbody]; exact hne')
        rw [Double.lt_ofInt, decide_eq_true_eq]
        omega
      have hstart' : (lengthHeader '*' zeros items.length start).start = start := rfl
      rw [ofInt_zero] at hloop
      rw [tryParseReply_array fuel hfits hheader (isArray_lengthHeader hlength),
        number_lengthHeader hlength, hstart', hloop]

end SupplyChain.AnyBytes

namespace SupplyChain.AnyBytes.RawRespClient

open Resp (Reply)
open Double (ofInt)

/-- The settlement, with a value of JavaScript. -/
def ofSettlement : SupplyChain.Settlement → Settlement
  | .resolved value => .resolved (ofValue value)
  | .rejected message => .rejected message

/-- The client has the buffer and the calls of the exact one. -/
structure Mirrors (c : SupplyChain.RawRespClient) (c' : RawRespClient) : Prop where
  buffer : c'.buffer.bytes = c.buffer
  pending : c'.pending = c.pending
  settled : c'.settled = c.settled.map fun s => (s.1, ofSettlement s.2)

theorem settlement_ofValue (value : Resp.Value) :
    settlement (ofValue value) = ofSettlement (SupplyChain.RawRespClient.settlement value) := by
  cases value <;> rfl

theorem Mirrors.settle {c : SupplyChain.RawRespClient} {c' : RawRespClient} (h : Mirrors c c')
    (settlement : SupplyChain.Settlement) :
    Mirrors (c.settle settlement) (c'.settle (ofSettlement settlement)) := by
  unfold RawRespClient.settle SupplyChain.RawRespClient.settle
  rw [h.pending]
  cases hpending : c.pending with
  | nil => exact h
  | cons call pending =>
    refine ⟨h.buffer, rfl, ?_⟩
    dsimp only
    rw [h.settled, List.map_append]
    rfl

theorem buffer_settle_exact (c : SupplyChain.RawRespClient) (settlement : SupplyChain.Settlement) :
    (c.settle settlement).buffer = c.buffer := by
  unfold SupplyChain.RawRespClient.settle
  split <;> rfl

/-- Turn after turn, the loop over the replies in the buffer is that of the exact client. -/
theorem progress_mirrors {replies : List Reply} (hreplies : ∀ reply ∈ replies, reply.WellFormed)
    {part : List UInt8} (hpart : Unfinished part) {c : SupplyChain.RawRespClient} {c' : RawRespClient}
    (h : Mirrors c c') {turns fuel : Nat} (hbuffer : c.buffer = Reply.encodeAll replies ++ part)
    (hturns : replies.length < turns) (hfuel : c.buffer.length + 1 < fuel) :
    ∃ d d', c.progress turns = some d ∧ progress fuel c' = some d' ∧ Mirrors d d' := by
  induction replies generalizing c c' turns fuel with
  | nil =>
    obtain ⟨turns, rfl⟩ := Nat.exists_eq_succ_of_ne_zero (Nat.ne_of_gt hturns)
    obtain ⟨fuel, rfl⟩ := Nat.exists_eq_succ_of_ne_zero (show fuel ≠ 0 by omega)
    obtain rfl : c.buffer = part := hbuffer
    obtain ⟨reply, hreply, hprefix, hne⟩ := id hpart
    have hfits := c'.buffer.fits
    rw [h.buffer] at hfits
    have hmore : tryParseReply fuel c.buffer (ofInt (0 : Nat)) = some .more :=
      tryParseReply_unfinished hreply (by rw [List.drop_zero]; omega) hfits hprefix hne
    rw [ofInt_zero] at hmore
    refine ⟨c, c', ?_, ?_, h⟩
    · rw [Nat.succ_eq_add_one, SupplyChain.RawRespClient.progress, hpart.more]
    · rw [Nat.succ_eq_add_one, progress, h.buffer, hmore]
  | cons reply replies ih =>
    obtain ⟨turns, rfl⟩ := Nat.exists_eq_succ_of_ne_zero (show turns ≠ 0 by omega)
    obtain ⟨fuel, rfl⟩ := Nat.exists_eq_succ_of_ne_zero (show fuel ≠ 0 by omega)
    have hreply := hreplies reply List.mem_cons_self
    have hpos := List.length_pos_iff.mpr (encode_ne_nil hreply)
    rw [Reply.encodeAll, List.append_assoc] at hbuffer
    have hlength : reply.encode.length ≤ c.buffer.length := by
      rw [hbuffer, List.length_append]
      omega
    have hfits := c'.buffer.fits
    have hparse : SupplyChain.tryParseReply (c.buffer.length + 1) c.buffer 0 = _ :=
      tryParseReply_whole hreply (by omega) hbuffer
    have hparse' : tryParseReply fuel c.buffer (ofInt (0 : Nat)) = _ :=
      tryParseReply_reply hreply (by omega) (by rw [← h.buffer]; exact hfits) hbuffer
    rw [ofInt_zero] at hparse'
    have hrest : c.buffer.drop reply.encode.length = Reply.encodeAll replies ++ part := by
      rw [hbuffer, List.drop_left]
    have hconsumed : Mirrors { c with buffer := c.buffer.drop reply.encode.length }
        (c'.consume (ofInt (reply.encode.length : Nat))) := by
      refine ⟨?_, h.pending, h.settled⟩
      rw [← h.buffer]
      exact sliceFrom_nat (by rw [h.buffer]; exact hlength)
    rw [Nat.succ_eq_add_one, SupplyChain.RawRespClient.progress, hparse, Nat.succ_eq_add_one, progress,
      h.buffer, hparse']
    dsimp only
    rw [settlement_ofValue]
    have hsettled := hconsumed.settle (SupplyChain.RawRespClient.settlement reply.value)
    refine ih (fun r hr => hreplies r (List.mem_cons_of_mem _ hr)) hsettled ?_ ?_ ?_
    · rw [buffer_settle_exact, hrest]
    · rw [List.length_cons] at hturns
      omega
    · rw [buffer_settle_exact, List.length_drop]
      omega

/-- When a chunk completes replies of a server, the client does what the exact one does. -/
theorem onData_mirrors {replies : List Reply} (hreplies : ∀ reply ∈ replies, reply.WellFormed)
    {part : List UInt8} (hpart : Unfinished part) {c : SupplyChain.RawRespClient} {c' : RawRespClient}
    (h : Mirrors c c') (chunk : Buffer) (hfits : (c.buffer ++ chunk.bytes).length ≤ MAX_LENGTH)
    (hbuffer : c.buffer ++ chunk.bytes = Reply.encodeAll replies ++ part) :
    ∃ fuel d d', c.onData chunk.bytes = some d ∧ onData fuel c' chunk = some (.returns d') ∧ Mirrors d d' := by
  have hconcat : c'.buffer.concat chunk = some ⟨c.buffer ++ chunk.bytes, hfits⟩ := by
    unfold Buffer.concat
    simp only [h.buffer]
    exact dif_pos hfits
  have hcount : replies.length ≤ (c.buffer ++ chunk.bytes).length := by
    have hle := SupplyChain.RawRespClient.length_le_encodeAll hreplies
    rw [hbuffer, List.length_append]
    omega
  have hreceived : Mirrors { c with buffer := c.buffer ++ chunk.bytes }
      { c' with buffer := ⟨c.buffer ++ chunk.bytes, hfits⟩ } := ⟨rfl, h.pending, h.settled⟩
  obtain ⟨d, d', hold, hnew, hmirrors⟩ := progress_mirrors hreplies hpart hreceived hbuffer
    (Nat.lt_succ_of_le hcount) (Nat.lt_succ_self _)
  refine ⟨(c.buffer ++ chunk.bytes).length + 1 + 1, d, d', hold, ?_, hmirrors⟩
  rw [onData, hconcat]
  dsimp only
  rw [hnew]
  rfl

end SupplyChain.AnyBytes.RawRespClient
