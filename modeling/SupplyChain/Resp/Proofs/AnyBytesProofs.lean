import SupplyChain.Resp.AnyBytes

/-!
# Proofs: reading any bytes

At an offset of the buffer the parser does what the header there says, and nowhere else does it find a
reply. So what it parses is an extent, as long as no bulk string has a bad length, and the other way round.
-/

namespace SupplyChain.AnyBytes

open Double (ofInt)

variable {buf received : List UInt8}

/-! ## Headers -/

theorem findCRLF_lt {bytes : List UInt8} {n : Nat} (h : findCRLF bytes = some n) : n + 2 ≤ bytes.length := by
  induction bytes generalizing n with
  | nil => cases h
  | cons b rest ih =>
    unfold findCRLF at h
    split at h
    · rename_i hcrlf
      cases h
      cases rest with
      | nil => cases hcrlf.2
      | cons b' rest => simp
    · obtain ⟨m, hm, rfl⟩ := Option.map_eq_some_iff.mp h
      have := ih hm
      simp only [List.length_cons]
      omega

theorem indexOfCRLF_bounds {start lineEnd : Nat} (h : indexOfCRLF buf start = some lineEnd) :
    start ≤ lineEnd ∧ lineEnd + 2 ≤ buf.length := by
  obtain ⟨n, hn, rfl⟩ := Option.map_eq_some_iff.mp h
  have := findCRLF_lt hn
  rw [List.length_drop] at this
  omega

theorem header_bounds {o : Nat} {h : Header} (hheader : header buf o = some h) :
    o + 3 ≤ h.start ∧ h.start ≤ buf.length := by
  unfold header at hheader
  split at hheader
  · rename_i lineEnd hbyte hend
    cases hheader
    have := indexOfCRLF_bounds hend
    dsimp only
    omega
  · cases hheader

theorem ofInt_nat_inj {m n : Nat} : ofInt m = ofInt n ↔ m = n := by
  rw [Double.ofInt_inj, Int.natCast_inj]

/-- At an offset of a buffer, the parser does what the header says. -/
theorem tryParseReply_nat (hfits : buf.length ≤ MAX_LENGTH) (fuel o : Nat) :
    tryParseReply (fuel + 1) buf (ofInt o) =
      match header buf o with
      | none => some .more
      | some h => parseBody (tryParseReply fuel buf) fuel buf (ofInt o) h.type h.line h.start := by
  unfold MAX_LENGTH at hfits
  rw [tryParseReply, length, Double.le_ofInt]
  rcases Nat.lt_or_ge o buf.length with hlt | hge
  · have hnext : (ofInt (o : Int)).add (ofInt 1) = ofInt ((o + 1 : Nat) : Int) := by
      rw [Double.add_ofInt (by rw [abs_of_nonneg (by omega)]; omega)]
      rfl
    have hstart : min (o + 1) buf.length = o + 1 := Nat.min_eq_left hlt
    have hbyte : elementAt buf (ofInt (o : Int)) = buf[o]? := by simp [elementAt, ofInt]
    rw [if_neg (by rw [decide_eq_true_eq]; omega), hnext, indexOf, Double.index_ofInt, hstart, hbyte, header,
      List.getElem?_eq_getElem hlt]
    dsimp only
    cases hend : indexOfCRLF buf (o + 1) with
    | none => rfl
    | some lineEnd =>
      have hbounds := indexOfCRLF_bounds hend
      have hstop : min lineEnd buf.length = lineEnd := Nat.min_eq_left (by omega)
      dsimp only
      rw [slice, Double.index_ofInt, Double.index_ofInt, hstart, hstop]
      rfl
  · have hnone : header buf o = none := by
      rw [header, List.getElem?_eq_none hge]
    rw [if_pos (by rw [decide_eq_true_eq]; omega), hnone]

/-- Where there is no byte, the parser finds no reply. -/
theorem tryParseReply_parsed {fuel : Nat} {offset consumed : Double} {value : JsValue}
    (h : tryParseReply fuel buf offset = some (.parsed value consumed)) :
    ∃ o : Nat, offset = ofInt o ∧ o < buf.length := by
  cases fuel with
  | zero => cases h
  | succ fuel =>
    rw [tryParseReply] at h
    split at h
    · cases h
    · split at h
      · cases h
      · cases helement : elementAt buf offset with
        | none =>
          rw [helement] at h
          cases h
        | some byte =>
          cases offset with
          | finite x =>
            unfold elementAt at helement
            dsimp only at helement
            split at helement
            · rename_i hint
              have hlt := (List.getElem?_eq_some_iff.mp helement).1
              refine ⟨x.num.toNat, ?_, hlt⟩
              rw [ofInt, Int.toNat_of_nonneg hint.2, Rat.coe_int_num_of_den_eq_one hint.1]
            · cases helement
          | nan => cases helement
          | infinity s => cases helement

/-! ## The kinds of headers -/

theorem Header.kinds (h : Header) : h.IsLine ∨ h.IsBulk ∨ h.IsArray ∨
    ¬ (h.type = '+' ∨ h.type = '-' ∨ h.type = ':' ∨ h.type = '$' ∨ h.type = '*') := by
  unfold Header.IsLine Header.IsBulk Header.IsArray
  tauto

section Kinds

variable {o : Nat} {h : Header}

theorem sub_start (hfits : buf.length ≤ MAX_LENGTH) (hheader : header buf o = some h) :
    (ofInt h.start).sub (ofInt o) = ofInt ((h.start - o : Nat) : Int) := by
  have hbounds := header_bounds hheader
  unfold MAX_LENGTH at hfits
  rw [Double.sub_ofInt (by rw [abs_of_nonneg (by omega)]; omega), Int.ofNat_sub (by omega)]

/-- The value of a reply that is a line. -/
def Header.value (h : Header) : JsValue :=
  if h.type = '+' then .text h.line
  else if h.type = '-' then .error h.line
  else if h.type = ':' then .number h.number
  else .null

theorem tryParseReply_line (fuel : Nat) (hfits : buf.length ≤ MAX_LENGTH) (hheader : header buf o = some h)
    (hline : h.IsLine) : tryParseReply (fuel + 1) buf (ofInt o) =
      some (.parsed h.value (ofInt ((h.start - o : Nat) : Int))) := by
  rw [tryParseReply_nat hfits, hheader, ← sub_start hfits hheader]
  unfold parseBody Header.value Header.number
  rcases hline with htype | htype | htype | ⟨htype | htype, hnumber⟩
  · simp [htype]
  · simp [htype]
  · simp [htype]
  · unfold Header.number at hnumber
    simp [htype, hnumber]
  · unfold Header.number at hnumber
    simp [htype, hnumber]

theorem tryParseReply_bulk (fuel : Nat) (hfits : buf.length ≤ MAX_LENGTH) (hheader : header buf o = some h)
    (hbulk : h.IsBulk) : tryParseReply (fuel + 1) buf (ofInt o) =
      if (length buf).lt h.bulkEnd then some .more
      else some (.parsed (.text (Utf8.decode (slice buf (ofInt h.start) ((ofInt h.start).add h.number))))
        (h.bulkEnd.sub (ofInt o))) := by
  obtain ⟨htype, hnumber⟩ := hbulk
  unfold Header.number at hnumber
  rw [tryParseReply_nat hfits, hheader]
  simp [parseBody, htype, hnumber, Header.bulkEnd, Header.number]
  rfl

theorem tryParseReply_array (fuel : Nat) (hfits : buf.length ≤ MAX_LENGTH) (hheader : header buf o = some h)
    (harray : h.IsArray) : tryParseReply (fuel + 1) buf (ofInt o) =
      match parseItems (tryParseReply fuel buf) h.number fuel (ofInt 0) (ofInt h.start) [] with
      | some (.parsed values cursor) => some (.parsed (.array values) (cursor.sub (ofInt o)))
      | some .more => some .more
      | some (.throws message) => some (.throws message)
      | none => none := by
  obtain ⟨htype, hnumber⟩ := harray
  unfold Header.number at hnumber
  rw [tryParseReply_nat hfits, hheader]
  cases hitems : parseItems (tryParseReply fuel buf) (Double.Number h.line) fuel (ofInt 0) (ofInt h.start) [] with
  | none => simp [parseBody, htype, hnumber, Header.number, hitems]
  | some items => cases items <;> simp [parseBody, htype, hnumber, Header.number, hitems]

theorem tryParseReply_other (fuel : Nat) (hfits : buf.length ≤ MAX_LENGTH) (hheader : header buf o = some h)
    (hother : ¬ (h.type = '+' ∨ h.type = '-' ∨ h.type = ':' ∨ h.type = '$' ∨ h.type = '*')) :
    ∃ message, tryParseReply (fuel + 1) buf (ofInt o) = some (.throws message) := by
  simp only [not_or] at hother
  refine ⟨"Unsupported RESP type byte: ".toList ++ [h.type], ?_⟩
  rw [tryParseReply_nat hfits, hheader]
  simp [parseBody, hother]

end Kinds

/-! ## Extents -/

/-- An offset before the end of a part, which has at least a byte for each item. -/
def Part.front : Part → Nat
  | .reply o => o
  | .items o n => o + n

theorem Extent.bounds {part : Part} {stop : Nat} (h : Extent buf part stop) :
    part.front < stop ∧ stop ≤ buf.length := by
  induction h with
  | line hheader _ =>
    have := header_bounds hheader
    simp only [Part.front]
    omega
  | bulk _ _ _ hforward hwithin => exact ⟨hforward, hwithin⟩
  | array _ _ _ _ ih =>
    simp only [Part.front] at ih ⊢
    omega
  | start hheader _ =>
    have := header_bounds hheader
    simp only [Part.front]
    omega
  | item _ _ _ _ _ ihitems ihitem =>
    simp only [Part.front] at ihitems ihitem ⊢
    omega

theorem Extent.reply_bounds {o stop : Nat} (h : Extent buf (.reply o) stop) :
    o < stop ∧ stop ≤ buf.length := h.bounds

theorem Extent.items_bounds {o n stop : Nat} (h : Extent buf (.items o n) stop) :
    o + n < stop ∧ stop ≤ buf.length := h.bounds

theorem Reads.length_le {buf : List UInt8} {o : Nat} (h : Reads received buf o) :
    buf.length ≤ received.length := by
  induction h with
  | first => exact Nat.le_refl _
  | next _ _ ih =>
    rw [List.length_drop]
    omega
  | item _ _ _ _ _ ih => exact ih

/-! ## What is parsed is an extent -/

/-- No bulk string that is read has a bad length. -/
def Forward (received : List UInt8) : Prop := ∀ buf o, Reads received buf o → ¬ BadLength buf o

theorem sub_offset {m o : Nat} (hfits : m ≤ MAX_LENGTH) (hle : o ≤ m) :
    (ofInt (m : Int)).sub (ofInt o) = ofInt ((m - o : Nat) : Int) := by
  unfold MAX_LENGTH at hfits
  rw [Double.sub_ofInt (by rw [abs_of_nonneg (by omega)]; omega), Int.ofNat_sub hle]

theorem add_offset {m o : Nat} (hfits : o + m ≤ MAX_LENGTH) :
    (ofInt (o : Int)).add (ofInt m) = ofInt ((o + m : Nat) : Int) := by
  unfold MAX_LENGTH at hfits
  rw [Double.add_ofInt (by rw [abs_of_nonneg (by omega)]; omega)]
  rfl

theorem add_one {n : Nat} (hfits : n + 1 ≤ MAX_LENGTH) :
    (ofInt (n : Int)).add (ofInt 1) = ofInt ((n + 1 : Nat) : Int) := add_offset (m := 1) hfits

theorem ofInt_zero : ofInt ((0 : Nat) : Int) = ofInt 0 := rfl

/-- A bulk string whose length is not bad and whose end is not awaited. -/
theorem bulk_extent {o : Nat} {h : Header} (hheader : header buf o = some h) (hbulk : h.IsBulk)
    (hgood : ¬ BadLength buf o) (hthere : (length buf).lt h.bulkEnd = false) :
    ∃ stop : Nat, h.bulkEnd = ofInt stop ∧ Extent buf (.reply o) stop := by
  have hstop : ∃ stop : Nat, h.bulkEnd = ofInt stop ∧ o < stop := by
    by_contra hno
    refine hgood ⟨h, hheader, hbulk, hthere, fun stop hstop => ?_⟩
    by_contra hlt
    exact hno ⟨stop, hstop, Nat.not_le.mp hlt⟩
  obtain ⟨stop, hstop, hforward⟩ := hstop
  have hwithin : stop ≤ buf.length := by
    rw [hstop, length, Double.lt_ofInt, decide_eq_false_iff_not] at hthere
    omega
  exact ⟨stop, hstop, .bulk hheader hbulk hstop hforward hwithin⟩

/-- The loop over the items of an array goes from one extent to the next. -/
theorem parseItems_extent {o fuel turns n cursor : Nat} {h : Header} {values values' : List JsValue}
    {final : Double} (hfits : buf.length ≤ MAX_LENGTH) (hheader : header buf o = some h) (harray : h.IsArray)
    (hparse : ∀ n cursor value consumed, Extent buf (.items o n) cursor → (ofInt n).lt h.number = true →
      tryParseReply fuel buf (ofInt cursor) = some (.parsed value consumed) →
      ∃ stop : Nat, consumed = ofInt ((stop - cursor : Nat) : Int) ∧ Extent buf (.reply cursor) stop)
    (hat : Extent buf (.items o n) cursor)
    (hloop : parseItems (tryParseReply fuel buf) h.number turns (ofInt n) (ofInt cursor) values =
      some (.parsed values' final)) :
    ∃ stop : Nat, final = ofInt stop ∧ Extent buf (.reply o) stop := by
  induction turns generalizing n cursor values with
  | zero => cases hloop
  | succ turns ih =>
    rw [parseItems] at hloop
    cases hmore : (ofInt (n : Int)).lt h.number with
    | false =>
      rw [hmore, if_neg Bool.false_ne_true] at hloop
      cases hloop
      exact ⟨cursor, rfl, .array hheader harray hat hmore⟩
    | true =>
      rw [hmore, if_pos rfl] at hloop
      cases hitem : tryParseReply fuel buf (ofInt cursor) with
      | none =>
        rw [hitem] at hloop
        cases hloop
      | some result =>
        rw [hitem] at hloop
        cases result with
        | more => cases hloop
        | throws message => cases hloop
        | parsed value consumed =>
          dsimp only at hloop
          obtain ⟨stop, rfl, hextent⟩ := hparse n cursor value consumed hat hmore hitem
          obtain ⟨hforward, hwithin⟩ := hextent.reply_bounds
          obtain ⟨hcount, -⟩ := hat.items_bounds
          have hcursor : cursor + (stop - cursor) = stop := by omega
          rw [add_one (by omega), add_offset (by omega), hcursor] at hloop
          exact ih (.item hheader harray hat hmore hextent) hloop

/-- Where nothing that is read has a bad length, a reply that is parsed is an extent, and its bytes are
what is consumed. -/
theorem tryParseReply_extent (hforward : Forward received) {fuel o : Nat} {value : JsValue} {consumed : Double}
    (hreads : Reads received buf o) (hfits : buf.length ≤ MAX_LENGTH)
    (h : tryParseReply fuel buf (ofInt o) = some (.parsed value consumed)) :
    ∃ stop : Nat, consumed = ofInt ((stop - o : Nat) : Int) ∧ Extent buf (.reply o) stop := by
  induction fuel generalizing o value consumed with
  | zero => cases h
  | succ fuel ih =>
    cases hheader : header buf o with
    | none =>
      rw [tryParseReply_nat hfits, hheader] at h
      cases h
    | some head =>
      rcases head.kinds with hline | hbulk | harray | hother
      · rw [tryParseReply_line fuel hfits hheader hline] at h
        cases h
        exact ⟨head.start, rfl, .line hheader hline⟩
      · rw [tryParseReply_bulk fuel hfits hheader hbulk] at h
        split at h
        · cases h
        · rename_i hthere
          cases h
          obtain ⟨stop, hstop, hextent⟩ :=
            bulk_extent hheader hbulk (hforward buf o hreads) (Bool.not_eq_true _ ▸ hthere)
          obtain ⟨hlt, hwithin⟩ := hextent.reply_bounds
          rw [hstop]
          exact ⟨stop, sub_offset (by omega) (Nat.le_of_lt hlt), hextent⟩
      · rw [tryParseReply_array _ hfits hheader harray] at h
        cases hloop : parseItems (tryParseReply fuel buf) head.number fuel (ofInt 0) (ofInt head.start) [] with
        | none =>
          rw [hloop] at h
          cases h
        | some result =>
          rw [hloop] at h
          cases result with
          | more => cases h
          | throws message => cases h
          | parsed values cursor =>
            cases h
            obtain ⟨stop, rfl, hextent⟩ := parseItems_extent (n := 0) hfits hheader harray
              (fun n cursor value consumed hat hmore hitem =>
                ih (.item hreads hheader harray hat hmore) hitem)
              (.start hheader harray) hloop
            obtain ⟨hlt, hwithin⟩ := hextent.reply_bounds
            exact ⟨stop, sub_offset (by omega) (Nat.le_of_lt hlt), hextent⟩
      · obtain ⟨message, hmessage⟩ := tryParseReply_other fuel hfits hheader hother
        rw [hmessage] at h
        cases h

/-! ## The parser comes to an end -/

/-- Each turn of the loop leaves fewer bytes. -/
theorem parseItems_ends {o fuel n cursor : Nat} {h : Header} (turns : Nat) (values : List JsValue)
    (hfits : buf.length ≤ MAX_LENGTH) (hheader : header buf o = some h) (harray : h.IsArray)
    (hparse : ∀ n cursor value consumed, Extent buf (.items o n) cursor → (ofInt n).lt h.number = true →
      tryParseReply fuel buf (ofInt cursor) = some (.parsed value consumed) →
      ∃ stop : Nat, consumed = ofInt ((stop - cursor : Nat) : Int) ∧ Extent buf (.reply cursor) stop)
    (hends : ∀ n cursor, Extent buf (.items o n) cursor → (ofInt n).lt h.number = true →
      ∃ result, tryParseReply fuel buf (ofInt cursor) = some result)
    (hat : Extent buf (.items o n) cursor) (hturns : buf.length - cursor < turns) :
    ∃ result, parseItems (tryParseReply fuel buf) h.number turns (ofInt n) (ofInt cursor) values =
      some result := by
  induction turns generalizing n cursor values with
  | zero => omega
  | succ turns ih =>
    rw [parseItems]
    cases hmore : (ofInt (n : Int)).lt h.number with
    | false => exact ⟨_, if_neg Bool.false_ne_true⟩
    | true =>
      rw [if_pos rfl]
      obtain ⟨result, hitem⟩ := hends n cursor hat hmore
      rw [hitem]
      cases result with
      | more => exact ⟨_, rfl⟩
      | throws message => exact ⟨_, rfl⟩
      | parsed value consumed =>
        obtain ⟨stop, rfl, hextent⟩ := hparse n cursor value consumed hat hmore hitem
        obtain ⟨hlt, hwithin⟩ := hextent.reply_bounds
        obtain ⟨hcount, -⟩ := hat.items_bounds
        dsimp only
        have hcursor : cursor + (stop - cursor) = stop := by omega
        rw [add_one (by omega), add_offset (by omega), hcursor]
        exact ih _ (.item hheader harray hat hmore hextent) (by omega)

theorem tryParseReply_ends (hforward : Forward received) (fuel : Nat) {o : Nat} (hreads : Reads received buf o)
    (hfits : buf.length ≤ MAX_LENGTH) (hfuel : buf.length - o < fuel) :
    ∃ result, tryParseReply fuel buf (ofInt o) = some result := by
  induction fuel generalizing o with
  | zero => omega
  | succ fuel ih =>
    cases hheader : header buf o with
    | none => exact ⟨.more, by rw [tryParseReply_nat hfits, hheader]⟩
    | some head =>
      have hbounds := header_bounds hheader
      rcases head.kinds with hline | hbulk | harray | hother
      · exact ⟨_, tryParseReply_line fuel hfits hheader hline⟩
      · rw [tryParseReply_bulk fuel hfits hheader hbulk]
        split <;> exact ⟨_, rfl⟩
      · obtain ⟨result, hloop⟩ := parseItems_ends (n := 0) fuel [] hfits hheader harray
          (fun n cursor value consumed hat hmore hitem =>
            tryParseReply_extent hforward (.item hreads hheader harray hat hmore) hfits hitem)
          (fun n cursor hat hmore => by
            have hcursor := hat.items_bounds.1
            exact ih (.item hreads hheader harray hat hmore) (by omega))
          (.start hheader harray) (by omega)
        rw [tryParseReply_array _ hfits hheader harray]
        rw [ofInt_zero] at hloop
        rw [hloop]
        cases result <;> exact ⟨_, rfl⟩
      · obtain ⟨message, hmessage⟩ := tryParseReply_other fuel hfits hheader hother
        exact ⟨_, hmessage⟩

theorem sliceFrom_nat {n : Nat} (hle : n ≤ buf.length) : sliceFrom buf (ofInt n) = buf.drop n := by
  rw [sliceFrom, Double.index_ofInt, Nat.min_eq_left hle]

@[simp] theorem RawRespClient.buffer_settle (c : RawRespClient) (settlement : Settlement) :
    (c.settle settlement).buffer = c.buffer := by
  unfold RawRespClient.settle
  split <;> rfl

/-- Each turn of the loop of `onData` leaves fewer bytes in the buffer. -/
theorem progress_ends (hforward : Forward received) {fuel : Nat} {c : RawRespClient}
    (hreads : Reads received c.buffer.bytes 0) (hfuel : c.buffer.bytes.length + 1 < fuel) :
    ∃ c', RawRespClient.progress fuel c = some c' := by
  induction fuel generalizing c with
  | zero => omega
  | succ fuel ih =>
    have hfits := c.buffer.fits
    obtain ⟨result, hresult⟩ := tryParseReply_ends hforward fuel (o := 0) hreads hfits (by omega)
    rw [ofInt_zero] at hresult
    rw [RawRespClient.progress, hresult]
    cases result with
    | more => exact ⟨_, rfl⟩
    | throws message => exact ⟨_, rfl⟩
    | parsed value consumed =>
      obtain ⟨stop, rfl, hextent⟩ := tryParseReply_extent (o := 0) hforward hreads hfits hresult
      obtain ⟨hlt, hwithin⟩ := hextent.reply_bounds
      have hrest : ((c.consume (ofInt ((stop - 0 : Nat) : Int))).settle
          (RawRespClient.settlement value)).buffer.bytes = c.buffer.bytes.drop stop := by
        rw [RawRespClient.buffer_settle]
        exact sliceFrom_nat hwithin
      have hreads' := Reads.next hreads hextent
      rw [← hrest] at hreads'
      have hlength := congrArg List.length hrest
      rw [List.length_drop] at hlength
      exact ih hreads' (by omega)

/-! ## The calls are at what is read -/

theorem ItemAt.extent (hforward : Forward received) {o : Nat} {h : Header} {i cursor : Double}
    (hreads : Reads received buf o) (hfits : buf.length ≤ MAX_LENGTH) (hheader : header buf o = some h)
    (harray : h.IsArray) (hat : ItemAt buf h i cursor) :
    ∃ n p : Nat, i = ofInt n ∧ cursor = ofInt p ∧ Extent buf (.items o n) p := by
  induction hat with
  | start => exact ⟨0, h.start, rfl, rfl, .start hheader harray⟩
  | next _ hmore hparse ih =>
    obtain ⟨n, p, rfl, rfl, hextent⟩ := ih
    obtain ⟨stop, rfl, hitem⟩ :=
      tryParseReply_extent hforward (.item hreads hheader harray hextent hmore) hfits hparse
    obtain ⟨hlt, hwithin⟩ := hitem.reply_bounds
    obtain ⟨hcount, -⟩ := hextent.items_bounds
    have hcursor : p + (stop - p) = stop := by omega
    refine ⟨n + 1, stop, add_one (by omega), ?_, .item hheader harray hextent hmore hitem⟩
    rw [add_offset (by omega), hcursor]

theorem Called.reads (hforward : Forward received) (hfits : received.length ≤ MAX_LENGTH) {offset : Double}
    (h : Called received buf offset) : ∃ o : Nat, offset = ofInt o ∧ Reads received buf o := by
  induction h with
  | first => exact ⟨0, rfl, .first⟩
  | next _ hparse ih =>
    obtain ⟨o, hzero, hreads⟩ := ih
    rw [hzero] at hparse
    have ho : o = 0 := (ofInt_nat_inj (m := 0).mp hzero).symm
    subst ho
    obtain ⟨stop, rfl, hextent⟩ :=
      tryParseReply_extent hforward hreads (Nat.le_trans hreads.length_le hfits) hparse
    rw [Nat.sub_zero, sliceFrom_nat hextent.reply_bounds.2]
    exact ⟨0, rfl, .next hreads hextent⟩
  | item _ hheader harray hat hmore ih =>
    obtain ⟨o', ho, hreads⟩ := ih
    have ho' := ofInt_nat_inj.mp ho
    subst ho'
    obtain ⟨n, p, rfl, rfl, hextent⟩ :=
      hat.extent hforward hreads (Nat.le_trans hreads.length_le hfits) hheader harray
    exact ⟨p, rfl, .item hreads hheader harray hextent hmore⟩

/-! ## An extent is parsed -/

theorem parseItems_mono {parse parse' : Double → Option (Parsed JsValue)} {count i cursor : Double}
    {turns turns' : Nat} {values : List JsValue} {result : Parsed (List JsValue)}
    (hparse : ∀ offset r, parse offset = some r → parse' offset = some r) (hle : turns ≤ turns')
    (h : parseItems parse count turns i cursor values = some result) :
    parseItems parse' count turns' i cursor values = some result := by
  induction turns generalizing turns' i cursor values with
  | zero => cases h
  | succ turns ih =>
    obtain ⟨turns', rfl⟩ := Nat.exists_eq_succ_of_ne_zero (show turns' ≠ 0 by omega)
    rw [Nat.succ_eq_add_one, parseItems] at *
    split at h
    · rw [if_pos ‹_›]
      cases hitem : parse cursor with
      | none =>
        rw [hitem] at h
        cases h
      | some r =>
        rw [hparse cursor r hitem]
        rw [hitem] at h
        cases r with
        | more => exact h
        | throws message => exact h
        | parsed value consumed => exact ih (by omega) h
    · rw [if_neg ‹_›]
      exact h

theorem parseBody_mono {parse parse' : Double → Option (Parsed JsValue)} {turns turns' start : Nat}
    {offset : Double} {type : Char} {line : List Char} {result : Parsed JsValue}
    (hparse : ∀ offset r, parse offset = some r → parse' offset = some r) (hle : turns ≤ turns')
    (h : parseBody parse turns buf offset type line start = some result) :
    parseBody parse' turns' buf offset type line start = some result := by
  unfold parseBody at h ⊢
  dsimp only at h ⊢
  by_cases harray : type = '*'
  · subst harray
    simp only [Char.reduceEq, if_false, if_true] at h ⊢
    split at h
    · rw [if_pos ‹_›]
      exact h
    · rw [if_neg ‹_›]
      cases hitems : parseItems parse (Double.Number line) turns (ofInt 0) (ofInt start) [] with
      | none =>
        rw [hitems] at h
        cases h
      | some r =>
        rw [parseItems_mono hparse hle hitems]
        rw [hitems] at h
        exact h
  · rw [if_neg harray] at h ⊢
    exact h

/-- More fuel does not change what is parsed. -/
theorem tryParseReply_mono {fuel fuel' : Nat} {offset : Double} {result : Parsed JsValue}
    (hle : fuel ≤ fuel') (h : tryParseReply fuel buf offset = some result) :
    tryParseReply fuel' buf offset = some result := by
  induction fuel generalizing fuel' offset result with
  | zero => cases h
  | succ fuel ih =>
    obtain ⟨fuel', rfl⟩ := Nat.exists_eq_succ_of_ne_zero (show fuel' ≠ 0 by omega)
    rw [Nat.succ_eq_add_one, tryParseReply] at *
    split at h
    · rw [if_pos ‹_›]
      exact h
    · rw [if_neg ‹_›]
      dsimp only at h ⊢
      split at h
      · exact h
      · exact parseBody_mono (fun offset r hr => ih (by omega) hr) (by omega) h

/-- With enough fuel, the loop over the items of an array passes `n` of them. -/
def Passes (buf : List UInt8) (h : Header) (n stop : Nat) : Prop :=
  ItemAt buf h (ofInt n) (ofInt stop) ∧ ∃ fuel values, ∀ fuel' ≥ fuel, ∀ turns,
    parseItems (tryParseReply fuel' buf) h.number (turns + n) (ofInt 0) (ofInt h.start) [] =
      parseItems (tryParseReply fuel' buf) h.number turns (ofInt n) (ofInt stop) values

theorem Passes.next {h : Header} {n cursor stop fuel : Nat} {value : JsValue}
    (hpasses : Passes buf h n cursor) (hfits : buf.length ≤ MAX_LENGTH) (hn : n < buf.length)
    (hmore : (ofInt n).lt h.number = true) (hforward : cursor < stop) (hwithin : stop ≤ buf.length)
    (hparse : tryParseReply fuel buf (ofInt cursor) =
      some (.parsed value (ofInt ((stop - cursor : Nat) : Int)))) : Passes buf h (n + 1) stop := by
  obtain ⟨hat, fuel₀, values, hloop⟩ := hpasses
  have hcursor : cursor + (stop - cursor) = stop := by omega
  have hnext : (ofInt (cursor : Int)).add (ofInt ((stop - cursor : Nat) : Int)) = ofInt (stop : Int) := by
    rw [add_offset (by omega), hcursor]
  have hi := add_one (n := n) (by omega)
  constructor
  · rw [← hi, ← hnext]
    exact hat.next hmore hparse
  · refine ⟨max fuel₀ fuel, values ++ [value], fun fuel' hfuel' turns => ?_⟩
    have hturns : turns + (n + 1) = turns + 1 + n := by omega
    rw [hturns, hloop fuel' (by omega), parseItems, if_pos hmore,
      tryParseReply_mono (by omega) hparse]
    dsimp only
    rw [hi, hnext]

/-- With enough fuel, a part of the buffer is parsed up to an offset. -/
def Parses (buf : List UInt8) : Part → Nat → Prop
  | .reply o, stop => ∃ fuel value, tryParseReply fuel buf (ofInt o) =
      some (.parsed value (ofInt ((stop - o : Nat) : Int)))
  | .items o n, stop => ∀ h, header buf o = some h → Passes buf h n stop

/-- An extent is parsed, and its bytes are consumed. -/
theorem Extent.parses (hfits : buf.length ≤ MAX_LENGTH) {part : Part} {stop : Nat}
    (h : Extent buf part stop) : Parses buf part stop := by
  induction h with
  | line hheader hline => exact ⟨1, _, tryParseReply_line 0 hfits hheader hline⟩
  | @bulk o stop head hheader hbulk hstop hforward hwithin =>
    have hvalue := tryParseReply_bulk 0 hfits hheader hbulk
    have hthere : (length buf).lt (ofInt (stop : Int)) = false := by
      rw [length, Double.lt_ofInt, decide_eq_false_iff_not]
      omega
    rw [hstop, hthere, if_neg Bool.false_ne_true, sub_offset (by omega) (Nat.le_of_lt hforward)] at hvalue
    exact ⟨1, _, hvalue⟩
  | @array o n stop head hheader harray hitems hdone ih =>
    obtain ⟨-, fuel, values, hloop⟩ := ih head hheader
    obtain ⟨hlt, hwithin⟩ := hitems.items_bounds
    have hlast : parseItems (tryParseReply (fuel + n + 1) buf) head.number (fuel + 1) (ofInt n) (ofInt stop)
        values = some (.parsed values (ofInt stop)) := by
      rw [parseItems, if_neg (by rw [hdone]; exact Bool.false_ne_true)]
    have hturns : fuel + n + 1 = fuel + 1 + n := by omega
    refine ⟨fuel + n + 1 + 1, .array values, ?_⟩
    rw [tryParseReply_array _ hfits hheader harray]
    rw [← hloop (fuel + n + 1) (by omega) (fuel + 1), ← hturns] at hlast
    rw [hlast]
    dsimp only
    rw [sub_offset (by omega) (by omega)]
  | start hheader harray =>
    intro head hhead
    cases hheader.symm.trans hhead
    exact ⟨.start, 0, [], fun _ _ _ => rfl⟩
  | item hheader harray hitems hmore hitem ihitems ihitem =>
    intro head hhead
    have hpasses := ihitems head hhead
    cases hheader.symm.trans hhead
    obtain ⟨fuel, value, hparse⟩ := ihitem
    obtain ⟨hlt, hwithin⟩ := hitem.reply_bounds
    obtain ⟨hcount, hcursor⟩ := hitems.items_bounds
    exact hpasses.next hfits (by omega) hmore hlt hwithin hparse

theorem Reads.called (hfits : received.length ≤ MAX_LENGTH) {o : Nat} (h : Reads received buf o) :
    Called received buf (ofInt o) := by
  induction h with
  | first => exact .first
  | next hreads hextent ih =>
    have hbuf := Nat.le_trans hreads.length_le hfits
    obtain ⟨fuel, value, hparse⟩ := hextent.parses hbuf
    have hnext := Called.next ih hparse
    rw [Nat.sub_zero, sliceFrom_nat hextent.reply_bounds.2] at hnext
    exact hnext
  | item hreads hheader harray hitems hmore ih =>
    have hbuf := Nat.le_trans hreads.length_le hfits
    exact .item ih hheader harray (hitems.parses hbuf _ hheader).1 hmore

/-! ## Bad lengths -/

theorem representable_bulkEnd {start : Nat} {len : Double} {x : ℚ} (h : bulkEnd start len = .finite x) :
    Double.Representable x := by
  unfold bulkEnd at h
  cases hsum : (ofInt (start : Int)).add len with
  | nan =>
    rw [hsum] at h
    cases h
  | infinity s =>
    rw [hsum] at h
    cases h
  | finite y =>
    rw [hsum] at h
    exact Double.representable_of_add (by simp) h

/-- A bulk string with a bad length is parsed all the same, and what it consumes is no positive integer. -/
theorem BadLength.consumes {o : Nat} (hfits : buf.length ≤ MAX_LENGTH) (h : BadLength buf o) :
    ∃ value consumed, tryParseReply 1 buf (ofInt o) = some (.parsed value consumed) ∧
      ¬ PositiveWithin buf consumed := by
  obtain ⟨head, hheader, hbulk, hthere, hbad⟩ := h
  have hvalue := tryParseReply_bulk 0 hfits hheader hbulk
  rw [hthere, if_neg Bool.false_ne_true] at hvalue
  refine ⟨_, _, hvalue, ?_⟩
  rintro ⟨n, hconsumed, hpos, -⟩
  cases hend : head.bulkEnd with
  | nan =>
    rw [hend] at hconsumed
    cases hconsumed
  | infinity s =>
    rw [hend] at hconsumed
    cases hconsumed
  | finite x =>
    rw [hend] at hconsumed
    obtain ⟨k, rfl, hlt⟩ := Double.of_sub_ofInt (representable_bulkEnd hend) (by omega) (by omega) hconsumed
    have hstop := hbad k.toNat (by rw [hend, Int.toNat_of_nonneg (by omega)]; rfl)
    omega

end SupplyChain.AnyBytes

namespace SupplyChain.AnyBytes.RawRespClient

open Double (ofInt)

/-- Exactly when processing what was received comes to an end in good order: no bulk string that is read
has a length that leads nowhere. -/
theorem processes_iff (c : RawRespClient) (chunk : Buffer) :
    c.Processes chunk ↔ c.LengthsLeadForward chunk := by
  constructor
  · intro h buffer hbuffer buf o hreads hbad
    have hbuf := Nat.le_trans hreads.length_le buffer.fits
    obtain ⟨value, consumed, hparse, hnot⟩ := hbad.consumes hbuf
    exact hnot (h.consumes hbuffer (hreads.called buffer.fits) hparse)
  · intro h
    constructor
    · unfold onData
      cases hbuffer : c.buffer.concat chunk with
      | none => exact ⟨0, .throws, rfl⟩
      | some buffer =>
        obtain ⟨c', hprogress⟩ := progress_ends (h buffer hbuffer) (c := { c with buffer }) .first
          (Nat.lt_succ_self _)
        exact ⟨_, .returns c', by dsimp only; rw [hprogress]; rfl⟩
    · intro buffer hbuffer buf offset hcalled fuel value consumed hparse
      have hforward := h buffer hbuffer
      obtain ⟨o, rfl, hreads⟩ := hcalled.reads hforward buffer.fits
      obtain ⟨stop, rfl, hextent⟩ :=
        tryParseReply_extent hforward hreads (Nat.le_trans hreads.length_le buffer.fits) hparse
      obtain ⟨hlt, hwithin⟩ := hextent.reply_bounds
      exact ⟨stop - o, rfl, by omega, by omega⟩

/-- A client with one call that waits for its reply. -/
def waiting : RawRespClient := ⟨⟨[], Nat.zero_le _⟩, [0], []⟩

/-- The bytes of `$abc\r\n`. -/
def abcHeader : Buffer := ⟨[36, 97, 98, 99, 13, 10], by decide⟩

theorem progress_abcHeader (fuel : Nat) {c : RawRespClient} (hbuffer : c.buffer.bytes = abcHeader.bytes) :
    progress fuel c = none := by
  have hheader : header abcHeader.bytes 0 = some ⟨'$', ['a', 'b', 'c'], 6⟩ := by decide +kernel
  have hnumber : Double.Number ['a', 'b', 'c'] = .nan := by decide +kernel
  have hbulk : Header.IsBulk ⟨'$', ['a', 'b', 'c'], 6⟩ := ⟨rfl, by rw [Header.number, hnumber]; nofun⟩
  have hend : Header.bulkEnd ⟨'$', ['a', 'b', 'c'], 6⟩ = .nan := by
    rw [Header.bulkEnd, Header.number, hnumber]
    rfl
  induction fuel generalizing c with
  | zero => rfl
  | succ fuel ih =>
    rw [progress, hbuffer]
    cases fuel with
    | zero => rfl
    | succ fuel =>
      have hparse := tryParseReply_bulk fuel abcHeader.fits hheader hbulk
      rw [hend] at hparse
      rw [← ofInt_zero, hparse]
      apply ih
      rw [buffer_settle]
      exact hbuffer

/-- A length that is no number: nothing is consumed, again and again. -/
theorem abcHeader_never_returns :
    (∀ fuel, onData fuel waiting abcHeader = none) ∧ ¬ waiting.Processes abcHeader := by
  have hnever : ∀ fuel, onData fuel waiting abcHeader = none := by
    intro fuel
    have hconcat : waiting.buffer.concat abcHeader = some abcHeader := rfl
    rw [onData, hconcat]
    dsimp only
    rw [progress_abcHeader fuel rfl]
    rfl
  refine ⟨hnever, fun h => ?_⟩
  obtain ⟨fuel, ending, hends⟩ := h.ends
  rw [hnever fuel] at hends
  cases hends

end SupplyChain.AnyBytes.RawRespClient
