import SupplyChain.Resp.UnsupportedReplies
import SupplyChain.Resp.Proofs.RawRespClientProofs

/-!
# Proofs: which calls get their own replies

As long as a chunk that completes the line of an unsupported reply ends where the reply ends, what is
dropped from the buffer is that reply alone.
-/

namespace SupplyChain

open Resp RespEvent

/-! ## Parsing an answer -/

theorem ofNat_toUInt8 {type : Char} (hbyte : type.toNat < 256) :
    Char.ofNat type.toUInt8.toNat = type := by
  have hnat : type.toUInt8.toNat = type.toNat := by
    rw [Char.toUInt8, UInt32.toNat_toUInt8]
    exact Nat.mod_eq_of_lt hbyte
  rw [hnat, Char.ofNat_toNat]

/-- An unsupported reply throws once its line is there. -/
theorem tryParseReply_unsupported {type : Char} {line body : List UInt8} (hbyte : type.toNat < 256)
    (htype : type ∉ ['+', '-', ':', '$', '*']) (hcr : CR ∉ line) {buf : List UInt8} (fuel : Nat)
    (hbuf : buf = frame type line body) :
    tryParseReply (fuel + 1) buf 0 = .throws ("Unsupported RESP type byte: ".toList ++ [type]) := by
  have hat : buf.drop 0 = frame type line body := hbuf
  obtain ⟨hparse, -, -⟩ := tryParseReply_frame fuel hcr hat (ofNat_toUInt8 hbyte)
  simp only [List.mem_cons, List.not_mem_nil, or_false, not_or] at htype
  obtain ⟨hplus, hminus, hcolon, hdollar, hstar⟩ := htype
  rw [hparse, parseBody, if_neg hplus, if_neg hminus, if_neg hcolon, if_neg hdollar, if_neg hstar]

namespace RawRespClient

/-- What is in the buffer between two events: nothing that can be parsed. -/
def Waits (part : List UInt8) : Prop := tryParseReply (part.length + 1) part 0 = .more

theorem waits_nil : Waits [] := unfinished_nil.more

/-- An answer that is all there is not waited for. -/
theorem Waits.not_prefix {part : List UInt8} (h : Waits part) {answer : Answer} (hanswer : answer.WellFormed) :
    ¬ answer.encode <+: part := by
  rintro ⟨rest, rfl⟩
  unfold Waits at h
  cases hanswer with
  | @supported reply hreply =>
    have hlength : reply.encode.length ≤ (reply.encode ++ rest).length + 1 := by
      rw [List.length_append]
      omega
    have hparsed : tryParseReply ((reply.encode ++ rest).length + 1) (reply.encode ++ rest) 0 = _ :=
      tryParseReply_whole hreply hlength rfl
    rw [Answer.encode, hparsed] at h
    cases h
  | @unsupported type line body hbyte htype hcr _ =>
    rw [Answer.encode, tryParseReply_unsupported hbyte htype hcr _ (frame_append type line body rest)] at h
    cases h

/-! ## One call of `onData` -/

theorem Waits.of_cut {type : Char} {line : List UInt8} (hcr : CR ∉ line) {part : List UInt8}
    (hpart : part <+: type.toUInt8 :: line ++ [CR]) : Waits part := by
  cases part with
  | nil => exact waits_nil
  | cons byte part => exact tryParseReply_cut hcr (List.cons_prefix_cons.mp hpart).2 rfl

theorem mark_add (k start : Nat) (answers : List Answer) :
    Answer.marks (k + start) answers =
      (Answer.marks start answers).map fun mark => (k + mark.1, k + mark.2) := by
  induction answers generalizing start with
  | nil => rfl
  | cons answer answers ih =>
    cases answer with
    | supported reply => rw [Answer.marks, Nat.add_assoc, ih, Answer.marks]
    | unsupported type line body =>
      rw [Answer.marks, Nat.add_assoc, Nat.add_assoc, Nat.add_assoc, ih, Answer.marks, List.map_cons]
      simp [Nat.add_assoc]

theorem marks_cons (answer : Answer) (answers : List Answer) :
    Answer.marks 0 (answer :: answers) = Answer.marks 0 [answer] ++
      (Answer.marks 0 answers).map fun mark =>
        (answer.encode.length + mark.1, answer.encode.length + mark.2) := by
  cases answer with
  | supported reply =>
    rw [Answer.marks, Answer.marks, Nat.zero_add, Answer.marks, List.nil_append, Answer.encode, ← mark_add]
    rfl
  | unsupported type line body =>
    rw [Answer.marks, Answer.marks, Nat.zero_add, Nat.zero_add, Answer.marks, List.singleton_append,
      Answer.encode, ← mark_add]
    rfl

theorem encode_pos {answer : Answer} (h : answer.WellFormed) : 0 < answer.encode.length := by
  cases h with
  | supported hreply => exact List.length_pos_iff.mpr (encode_ne_nil hreply)
  | unsupported => simp [Answer.encode, frame]

theorem encodeAll_cons (answer : Answer) (answers : List Answer) :
    Answer.encodeAll (answer :: answers) = answer.encode ++ Answer.encodeAll answers :=
  List.flatMap_cons

/-- The answers in the buffer settle the calls that have waited longest, and the rest waits. -/
theorem progress_answers {answers : List Answer} (hanswers : ∀ answer ∈ answers, answer.WellFormed)
    {c : RawRespClient} {turns : Nat} (hbuffer : c.buffer <+: Answer.encodeAll answers)
    (hcut : ∀ mark ∈ Answer.marks 0 answers, mark.1 ≤ c.buffer.length → c.buffer.length = mark.2)
    (hcalls : answers.length ≤ c.pending.length) (hturns : c.buffer.length < turns) :
    ∃ n part, n ≤ answers.length ∧ c.buffer = Answer.encodeAll (answers.take n) ++ part ∧ Waits part ∧
      progress turns c = some
        { c with
          buffer := part
          pending := c.pending.drop n
          settled := c.settled ++ c.pending.zip ((answers.take n).map answered) } := by
  have hwaits : ∀ {c : RawRespClient} {turns}, c.buffer.length < turns → Waits c.buffer →
      progress turns c = some
      { c with
        buffer := c.buffer
        pending := c.pending.drop 0
        settled := c.settled ++ c.pending.zip (([] : List Answer).map answered) } := by
    intro c turns hturns hwait
    obtain ⟨turns, rfl⟩ := Nat.exists_eq_succ_of_ne_zero (Nat.ne_of_gt (Nat.zero_lt_of_lt hturns))
    rw [progress, show tryParseReply (c.buffer.length + 1) c.buffer 0 = .more from hwait]
    simp
  induction answers generalizing c turns with
  | nil =>
    have hnil : c.buffer = [] := List.prefix_nil.mp hbuffer
    refine ⟨0, c.buffer, Nat.le_refl 0, rfl, hnil ▸ waits_nil, hwaits hturns (hnil ▸ waits_nil)⟩
  | cons answer answers ih =>
    obtain ⟨hanswer, hothers⟩ := List.forall_mem_cons.mp hanswers
    rw [encodeAll_cons] at hbuffer
    by_cases hwait : Waits c.buffer
    · exact ⟨0, c.buffer, Nat.zero_le _, rfl, hwait, hwaits hturns hwait⟩
    obtain ⟨call, pending, hpending⟩ :=
      List.exists_cons_of_length_pos (Nat.lt_of_lt_of_le (Nat.succ_pos _) hcalls)
    obtain ⟨turns, rfl⟩ := Nat.exists_eq_succ_of_ne_zero (Nat.ne_of_gt (Nat.zero_lt_of_lt hturns))
    cases hanswer with
    | @supported reply hreply =>
      obtain ⟨rest, hwhole, hrest⟩ :
          ∃ rest, c.buffer = reply.encode ++ rest ∧ rest <+: Answer.encodeAll answers := by
        obtain hfirst | hwhole := prefix_append_cases hbuffer
        · by_cases hall : c.buffer = reply.encode
          · exact ⟨[], by rw [hall, List.append_nil], List.nil_prefix⟩
          · exact absurd (Unfinished.more ⟨reply, hreply, hfirst, hall⟩) hwait
        · exact hwhole
      have hpos := encode_pos (.supported hreply)
      have hlength : c.buffer.length = reply.encode.length + rest.length := by rw [hwhole, List.length_append]
      rw [Answer.encode] at hpos
      have hparse : tryParseReply (c.buffer.length + 1) c.buffer 0 = _ :=
        tryParseReply_whole hreply (by omega) hwhole
      have hdrop : c.buffer.drop reply.encode.length = rest := by rw [hwhole, List.drop_left]
      have hcut' : ∀ mark ∈ Answer.marks 0 answers, mark.1 ≤ rest.length → rest.length = mark.2 := by
        intro mark hmark hle
        have hhere := hcut (reply.encode.length + mark.1, reply.encode.length + mark.2) (by
          rw [marks_cons]
          exact List.mem_append_right _ (List.mem_map_of_mem hmark)) (by dsimp only; omega)
        dsimp only at hhere
        omega
      obtain ⟨n, part, hn, hsplit, hpart, hprogress⟩ := @ih hothers
        { c with
          buffer := rest
          pending := pending
          settled := c.settled ++ [(call, settlement reply.value)] }
        turns hrest hcut' (by rw [hpending] at hcalls; exact Nat.le_of_succ_le_succ hcalls)
        (by dsimp only; omega)
      dsimp only at hsplit hprogress
      refine ⟨n + 1, part, Nat.succ_le_succ hn, ?_, hpart, ?_⟩
      · rw [hwhole, hsplit, List.take_succ_cons, encodeAll_cons, List.append_assoc, Answer.encode]
      · rw [progress, hparse]
        dsimp only
        rw [hdrop, settle, hpending]
        dsimp only
        rw [hprogress]
        simp [answered]
    | @unsupported type line body hbyte htype hcr hlf =>
      have hframe : c.buffer <+: frame type line (body ++ Answer.encodeAll answers) := by
        rw [← frame_append]
        exact hbuffer
      obtain ⟨more, hmore⟩ : ∃ more, c.buffer = frame type line more := by
        obtain hnil | ⟨part, hpart, hline⟩ | ⟨more, hmore, -⟩ := prefix_frame hframe
        · exact absurd (hnil ▸ waits_nil) hwait
        · exact absurd (Waits.of_cut hcr (hpart ▸ List.cons_prefix_cons.mpr ⟨rfl, hline⟩)) hwait
        · exact ⟨more, hmore⟩
      have hend : c.buffer.length = (frame type line body).length := by
        have hmark := hcut (line.length + 3, (frame type line body).length) (by simp [Answer.marks])
        dsimp only at hmark
        refine hmark ?_
        rw [hmore, length_frame]
        omega
      have hwhole : c.buffer = frame type line body := by
        refine List.IsPrefix.eq_of_length ?_ hend
        exact List.prefix_of_prefix_length_le hbuffer (List.prefix_append _ _) (Nat.le_of_eq hend)
      refine ⟨1, [], by simp, ?_, waits_nil, ?_⟩
      · rw [hwhole]
        simp [Answer.encodeAll, Answer.encode]
      · rw [progress, tryParseReply_unsupported hbyte htype hcr _ hwhole]
        dsimp only
        rw [settle, hpending]
        simp [answered]

/-! ## Runs -/

/-- After some events the first `n` answers have arrived, and a part of the next that is waited for. -/
structure AnsweredTo (answers : List Answer) (events : List RespEvent) (n : Nat) (c : RawRespClient) :
    Prop where
  arrived : received events = Answer.encodeAll (answers.take n) ++ c.buffer
  waits : Waits c.buffer
  calls : c.calls = sends events
  bound : n ≤ sends events ∧ n ≤ answers.length
  pending : c.pending = List.range' n (sends events - n)
  settled : c.settled = (List.range n).zip ((answers.take n).map answered)

variable {answers : List Answer} {events : List RespEvent} {n : Nat} {c : RawRespClient}

theorem answeredTo_connected (answers : List Answer) : AnsweredTo answers [] 0 connected where
  arrived := rfl
  waits := waits_nil
  calls := rfl
  bound := ⟨Nat.le_refl 0, Nat.zero_le _⟩
  pending := rfl
  settled := rfl

theorem AnsweredTo.send (h : AnsweredTo answers events n c) (args : List (List Char)) :
    AnsweredTo answers (events ++ [.send args]) n (c.send args) := by
  have hsends : sends (events ++ [.send args]) = sends events + 1 := sends_append _ _
  have hreceived : received (events ++ [.send args]) = received events := by
    rw [received_append, received, received, List.append_nil]
  obtain ⟨hsent, hanswers⟩ := h.bound
  refine
    { arrived := hreceived.trans h.arrived
      waits := h.waits
      calls := ?calls
      bound := ⟨by omega, hanswers⟩
      pending := ?pending
      settled := h.settled }
  case calls =>
    rw [hsends, ← h.calls]
    rfl
  case pending =>
    have hcall : c.calls = n + (sends events - n) := by
      rw [h.calls]
      omega
    have hlength : sends events + 1 - n = sends events - n + 1 := by omega
    rw [hsends, hlength, List.range'_1_concat, ← h.pending, ← hcall]
    rfl

theorem encodeAll_append (answers answers' : List Answer) :
    Answer.encodeAll (answers ++ answers') = Answer.encodeAll answers ++ Answer.encodeAll answers' :=
  List.flatMap_append

theorem marks_append (answers answers' : List Answer) :
    Answer.marks 0 (answers ++ answers') = Answer.marks 0 answers ++ (Answer.marks 0 answers').map fun mark =>
      ((Answer.encodeAll answers).length + mark.1, (Answer.encodeAll answers).length + mark.2) := by
  induction answers with
  | nil => simp [Answer.encodeAll, Answer.marks]
  | cons answer answers ih =>
    rw [List.cons_append, marks_cons, ih, marks_cons answer answers, encodeAll_cons]
    simp [Nat.add_assoc]

/-- While the buffer waits, no line of an unsupported reply has arrived. -/
theorem Waits.lt_mark {part : List UInt8} (h : Waits part) {answers : List Answer}
    (hanswers : ∀ answer ∈ answers, answer.WellFormed) (hpart : part <+: Answer.encodeAll answers) :
    ∀ mark ∈ Answer.marks 0 answers, part.length < mark.1 := by
  cases answers with
  | nil => exact fun _ hmark => absurd hmark List.not_mem_nil
  | cons answer answers =>
    have hanswer := hanswers answer List.mem_cons_self
    rw [encodeAll_cons] at hpart
    have hshort : part.length < answer.encode.length := by
      refine Nat.lt_of_not_le fun hle => h.not_prefix hanswer ?_
      exact List.prefix_of_prefix_length_le (List.prefix_append _ _) hpart hle
    intro mark hmark
    rw [marks_cons] at hmark
    obtain hfirst | hlater := List.mem_append.mp hmark
    · cases hanswer with
      | supported => cases hfirst
      | @unsupported type line body hbyte htype hcr hlf =>
        obtain rfl : mark = (line.length + 3, (frame type line body).length) := by
          simpa [Answer.marks] using hfirst
        rw [Answer.encode, frame_append] at hpart
        obtain rfl | ⟨part, rfl, hline⟩ | ⟨more, rfl, -⟩ := prefix_frame hpart
        · simp
        · have hle := hline.length_le
          simp only [List.length_append, List.length_cons, List.length_nil] at hle ⊢
          omega
        · unfold Waits at h
          rw [tryParseReply_unsupported hbyte htype hcr _ rfl] at h
          cases h
    · obtain ⟨mark', -, rfl⟩ := List.mem_map.mp hlater
      dsimp only
      omega

theorem AnsweredTo.data (h : AnsweredTo answers events n c)
    (hanswers : ∀ answer ∈ answers, answer.WellFormed) (chunk : List UInt8)
    (harrive : received (events ++ [.data chunk]) <+:
      Answer.encodeAll (answers.take (sends (events ++ [.data chunk]))))
    (hcut : ∀ mark ∈ Answer.marks 0 answers, (received events).length < mark.1 →
      mark.1 ≤ (received (events ++ [.data chunk])).length →
        (received (events ++ [.data chunk])).length = mark.2) :
    ∃ n' c', c.onData chunk = some c' ∧ AnsweredTo answers (events ++ [.data chunk]) n' c' := by
  have hsends : sends (events ++ [.data chunk]) = sends events := sends_append _ _
  have hreceived : received (events ++ [.data chunk]) =
      Answer.encodeAll (answers.take n) ++ (c.buffer ++ chunk) := by
    rw [received_append, h.arrived, List.append_assoc, received, received, List.append_nil]
  obtain ⟨hsent, hlength⟩ := h.bound
  -- the answers that are still awaited begin with what is in the buffer
  have hsplit : answers.take (sends events) =
      answers.take n ++ (answers.drop n).take (sends events - n) := by
    rw [← List.take_add, Nat.add_sub_cancel' hsent]
  have hall : answers.take n ++ (answers.drop n).take (sends events - n) ++ answers.drop (sends events) =
      answers := by
    rw [← hsplit, List.take_append_drop]
  rw [hsends, hreceived, hsplit, encodeAll_append, List.prefix_append_right_inj] at harrive
  have hawaited : ∀ answer ∈ (answers.drop n).take (sends events - n), answer.WellFormed :=
    fun answer ha => hanswers answer (List.mem_of_mem_drop (List.mem_of_mem_take ha))
  have hcut' : ∀ mark ∈ Answer.marks 0 ((answers.drop n).take (sends events - n)),
      mark.1 ≤ (c.buffer ++ chunk).length → (c.buffer ++ chunk).length = mark.2 := by
    intro mark hmark hle
    have hlt := h.waits.lt_mark hawaited ((List.prefix_append _ _).trans harrive) mark hmark
    have hmark' : ((Answer.encodeAll (answers.take n)).length + mark.1,
        (Answer.encodeAll (answers.take n)).length + mark.2) ∈ Answer.marks 0 answers := by
      refine congrArg (Answer.marks 0) hall ▸ ?_
      rw [marks_append, marks_append]
      exact List.mem_append_left _ (List.mem_append_right _ (List.mem_map.mpr ⟨mark, hmark, rfl⟩))
    have hhere := hcut _ hmark'
    rw [hreceived, h.arrived, List.length_append, List.length_append] at hhere
    dsimp only at hhere
    have hend := hhere (by omega) (by omega)
    omega
  obtain ⟨m, part, hm, hbuffer, hpart, hprogress⟩ := progress_answers hawaited
    (c := { c with buffer := c.buffer ++ chunk }) harrive hcut'
    (by
      rw [h.pending, List.length_range', List.length_take]
      exact Nat.min_le_left _ _)
    (Nat.lt_succ_self _)
  dsimp only at hbuffer hprogress
  have hm : m ≤ (answers.drop n).length ∧ m ≤ sends events - n := by
    rw [List.length_take] at hm
    omega
  rw [List.length_drop] at hm
  rw [List.take_take, Nat.min_eq_left hm.2] at hbuffer hprogress
  have hcount : ((answers.drop n).take m).length = m := by
    rw [List.length_take, List.length_drop]
    omega
  have htake : answers.take (n + m) = answers.take n ++ (answers.drop n).take m := List.take_add
  have hwaiting : List.range' n (sends events - n) =
      List.range' n m ++ List.range' (n + m) (sends events - (n + m)) := by
    rw [List.range'_append_1]
    congr 1
    omega
  refine ⟨n + m, _, hprogress,
    { arrived := ?arrived
      waits := hpart
      calls := h.calls.trans hsends.symm
      bound := by omega
      pending := ?pending
      settled := ?settled }⟩
  case arrived =>
    rw [hreceived, hbuffer, htake, encodeAll_append, List.append_assoc]
  case pending =>
    show c.pending.drop _ = _
    rw [h.pending, hsends, hwaiting, List.drop_left' List.length_range']
  case settled =>
    show c.settled ++ c.pending.zip _ = _
    have hsame : (List.range' n m).length = (((answers.drop n).take m).map answered).length := by
      rw [List.length_range', List.length_map, hcount]
    have hrange : List.range (n + m) = List.range n ++ List.range' n m := by
      rw [List.range_eq_range', List.range_eq_range', ← List.range'_append_1, Nat.zero_add]
    have hbefore : (List.range n).length = ((answers.take n).map answered).length := by
      rw [List.length_range, List.length_map, List.length_take, Nat.min_eq_left hlength]
    rw [h.settled, h.pending, hwaiting, zip_append_left hsame, htake, hrange, List.map_append,
      List.zip_append hbefore]

theorem AnsweredTo.run (h : AnsweredTo answers events n c)
    (hanswers : ∀ answer ∈ answers, answer.WellFormed) {rest : List RespEvent}
    (hanswered : AnsweredWith (events ++ rest) answers) (hcut : CutAtUnsupported (events ++ rest) answers) :
    ∃ n' c', c.run rest = some c' ∧ AnsweredTo answers (events ++ rest) n' c' := by
  induction rest generalizing events n c with
  | nil => exact ⟨n, c, rfl, by rwa [List.append_nil]⟩
  | cons e rest ih =>
    have hsplit : events ++ e :: rest = events ++ [e] ++ rest := by simp
    have hstep : ∃ n' c', c.step e = some c' ∧ AnsweredTo answers (events ++ [e]) n' c' := by
      cases e with
      | send args => exact ⟨n, c.send args, rfl, h.send args⟩
      | data chunk =>
        refine h.data hanswers chunk (hanswered _ ⟨rest, hsplit.symm⟩) fun mark hmark => ?_
        have hhere := hcut events.length (by simp) mark hmark
        have htake : (events ++ .data chunk :: rest).take (events.length + 1) = events ++ [.data chunk] := by
          rw [hsplit]
          exact List.take_left' (by simp)
        rwa [htake, List.take_left] at hhere
    obtain ⟨n₁, c₁, hone, hnext⟩ := hstep
    rw [hsplit] at hanswered hcut ⊢
    obtain ⟨n', c', hrun, hend⟩ := ih hnext hanswered hcut
    refine ⟨n', c', ?_, hend⟩
    rw [RawRespClient.run, List.foldlM_cons, hone]
    exact hrun

theorem AnsweredTo.faithful (h : AnsweredTo answers events n c)
    (hanswers : ∀ answer ∈ answers, answer.WellFormed) : Faithful answers events c := by
  have hlength : ((answers.take n).map answered).length = n := by
    rw [List.length_map, List.length_take, Nat.min_eq_left h.bound.2]
  constructor
  · intro call settlement hmem
    rw [h.settled] at hmem
    obtain ⟨i, hi, hpair⟩ := List.mem_iff_getElem.mp hmem
    rw [List.getElem_zip, List.getElem_range, Prod.mk.injEq] at hpair
    obtain ⟨rfl, hsettlement⟩ := hpair
    have hi : i < ((answers.take n).map answered).length := by
      rw [List.length_zip] at hi
      exact (Nat.lt_min.mp hi).2
    have htake := List.getElem?_eq_getElem hi
    rw [hsettlement, List.map_take, List.getElem?_take_of_lt (hlength ▸ hi)] at htake
    exact htake
  · intro k hk harrived call hcall
    have hle : k ≤ n := by
      by_contra hlt
      obtain ⟨answer, rest, hdrop⟩ : ∃ answer rest, answers.drop n = answer :: rest :=
        List.exists_cons_of_length_pos (by rw [List.length_drop]; omega)
      obtain ⟨m, hm⟩ : ∃ m, k = n + (m + 1) := ⟨k - n - 1, by omega⟩
      rw [hm, List.take_add, hdrop, List.take_succ_cons, encodeAll_append, h.arrived,
        List.prefix_append_right_inj, encodeAll_cons] at harrived
      have hanswer := hanswers answer (List.mem_of_mem_drop (hdrop ▸ List.mem_cons_self))
      exact h.waits.not_prefix hanswer ((List.prefix_append _ _).trans harrived)
    have hcall' : call < ((answers.take n).map answered).length := by omega
    refine ⟨((answers.take n).map answered)[call], ?_⟩
    rw [h.settled]
    refine List.mem_iff_getElem.mpr ⟨call, by simp; omega, ?_⟩
    simp

/-- If every chunk that completes the line of an unsupported reply ends where the reply ends, each call is
settled by the reply to its own command. -/
theorem answered_faithfully (hanswers : ∀ answer ∈ answers, answer.WellFormed)
    (hanswered : AnsweredWith events answers) (hcut : CutAtUnsupported events answers) :
    ∃ c, connected.run events = some c ∧ Faithful answers events c := by
  obtain ⟨n, c, hrun, h⟩ := (answeredTo_connected answers).run hanswers hanswered hcut
  exact ⟨c, hrun, h.faithful hanswers⟩

/-! ## Three commands -/

/-- `_` is the null of RESP3. -/
def nullThenNumbers : List Answer :=
  [.unsupported '_' [] [], .supported (.integer .unsigned 0 1), .supported (.integer .unsigned 0 2)]

theorem nullThenNumbers_wellFormed : ∀ answer ∈ nullThenNumbers, answer.WellFormed := by
  have hnumber : ∀ n < 2, (Answer.supported (.integer .unsigned 0 (n + 1))).WellFormed := fun n hn =>
    .supported (.integer (by simp only [Sign.apply]; omega) (by simp only [Sign.apply]; omega))
  intro answer hanswer
  simp only [nullThenNumbers, List.mem_cons, List.not_mem_nil, or_false] at hanswer
  obtain rfl | rfl | rfl := hanswer
  · exact .unsupported (by decide) (by decide) (by decide) (by decide)
  · exact hnumber 0 (by decide)
  · exact hnumber 1 (by decide)

/-- The replies in the given chunks, after three commands. -/
def threeCommands (chunks : List (List UInt8)) : List RespEvent :=
  [.send [], .send [], .send []] ++ chunks.map .data

theorem nullAlone_faithful :
    ∃ c, connected.run (threeCommands [[95, 13, 10], [58, 49, 13, 10, 58, 50, 13, 10]]) = some c ∧
      Faithful nullThenNumbers (threeCommands [[95, 13, 10], [58, 49, 13, 10, 58, 50, 13, 10]]) c :=
  answered_faithfully nullThenNumbers_wellFormed (by decide +kernel) (by decide +kernel)

/-- The first two replies come together; the second caller is given the reply of the third. -/
theorem nullFirst_shifts :
    (∀ answer ∈ nullThenNumbers, answer.WellFormed) ∧
      AnsweredWith (threeCommands [[95, 13, 10, 58, 49, 13, 10], [58, 50, 13, 10]]) nullThenNumbers ∧
      ∃ c, connected.run (threeCommands [[95, 13, 10, 58, 49, 13, 10], [58, 50, 13, 10]]) = some c ∧
        (1, .resolved (.number (some 2))) ∈ c.settled ∧ c.pending = [2] ∧
        ¬ Faithful nullThenNumbers (threeCommands [[95, 13, 10, 58, 49, 13, 10], [58, 50, 13, 10]]) c := by
  refine ⟨nullThenNumbers_wellFormed, by decide +kernel, _, rfl, ?_, ?_, ?_⟩
  · exact List.mem_cons_of_mem _ List.mem_cons_self
  · rfl
  · intro h
    have hown : some (answered (.supported (.integer .unsigned 0 1))) = some (.resolved (.number (some 2))) :=
      h.own 1 _ (List.mem_cons_of_mem _ List.mem_cons_self)
    rw [answered, Reply.value_integer (by decide)] at hown
    simp [settlement, Sign.apply] at hown

end RawRespClient

end SupplyChain
