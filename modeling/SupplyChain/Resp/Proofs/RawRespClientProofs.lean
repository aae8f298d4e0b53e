import SupplyChain.Resp.Proofs.ParseProofs

/-!
# Proofs: every call gets its reply

However the bytes of the replies are cut into chunks, the buffer holds the part of the next reply that
has arrived, and the replies before it have settled their calls.
-/

namespace SupplyChain

open Resp RespEvent

/-- A command is written as an array of bulk strings. -/
theorem encodeCommand_eq (args : List (List Char)) :
    encodeCommand args = (Reply.array 0 (args.map fun a => .bulk 0 (Utf8.encode a))).encode := by
  have hargs : ∀ args : List (List Char),
      Reply.encodeAll (args.map fun a => .bulk 0 (Utf8.encode a)) = args.flatMap fun a =>
        Utf8.encode ('$' :: Nat.toDigits 10 (Utf8.encode a).length ++ ['\r', '\n'] ++ a ++
          ['\r', '\n']) := by
    intro args
    induction args with
    | nil => rfl
    | cons a args ih =>
      rw [List.map_cons, Reply.encodeAll, ih, List.flatMap_cons, Reply.encode]
      simp [frame, numeral, Sign.text, Decimal.numeral, Utf8.encode]
      rfl
  rw [Reply.encode, hargs, encodeCommand, List.length_map]
  simp [frame, numeral, Sign.text, Decimal.numeral, Utf8.encode]
  rfl

/-- A part of a reply that is not all of it. -/
def Unfinished (part : List UInt8) : Prop :=
  ∃ reply : Reply, reply.WellFormed ∧ part <+: reply.encode ∧ part ≠ reply.encode

theorem encode_ne_nil {reply : Reply} (h : reply.WellFormed) : reply.encode ≠ [] := by
  cases h <;> simp [Reply.encode, frame]

theorem unfinished_nil : Unfinished [] :=
  ⟨.nullBulk, .nullBulk, List.nil_prefix, fun h => encode_ne_nil .nullBulk h.symm⟩

theorem Unfinished.more {part : List UInt8} (h : Unfinished part) :
    tryParseReply (part.length + 1) part 0 = .more := by
  obtain ⟨reply, hreply, hprefix, hne⟩ := h
  exact tryParseReply_strict hreply (Nat.le_succ _) hprefix hne

/-- What is unfinished does not begin with a reply. -/
theorem Unfinished.not_encodeAll {replies : List Reply} {part : List UInt8} (h : Unfinished part)
    (hreplies : ∀ reply ∈ replies, reply.WellFormed) (heq : part = Reply.encodeAll replies) :
    replies = [] := by
  cases replies with
  | nil => rfl
  | cons reply rest =>
    rw [Reply.encodeAll] at heq
    have hlength : reply.encode.length ≤ part.length + 1 := by
      rw [heq, List.length_append]
      omega
    have hparsed : tryParseReply (part.length + 1) part 0 = _ :=
      tryParseReply_whole (hreplies reply List.mem_cons_self) hlength heq
    rw [h.more] at hparsed
    cases hparsed

/-- The beginning of some replies is the first of them and a part of the next. -/
theorem split_prefix {replies : List Reply} (hreplies : ∀ reply ∈ replies, reply.WellFormed)
    {bytes : List UInt8} (h : bytes <+: Reply.encodeAll replies) :
    ∃ n part, n ≤ replies.length ∧ bytes = Reply.encodeAll (replies.take n) ++ part ∧
      Unfinished part := by
  induction replies generalizing bytes with
  | nil => exact ⟨0, [], Nat.le_refl 0, List.prefix_nil.mp h, unfinished_nil⟩
  | cons reply replies ih =>
    have hreply := hreplies reply List.mem_cons_self
    rw [Reply.encodeAll] at h
    have hwhole : ∀ rest, bytes = reply.encode ++ rest → rest <+: Reply.encodeAll replies →
        ∃ n part, n ≤ (reply :: replies).length ∧
          bytes = Reply.encodeAll ((reply :: replies).take n) ++ part ∧ Unfinished part := by
      intro rest heq hrest
      obtain ⟨n, part, hn, rfl, hpart⟩ := ih (fun r hr => hreplies r (List.mem_cons_of_mem _ hr)) hrest
      refine ⟨n + 1, part, Nat.succ_le_succ hn, ?_, hpart⟩
      rw [heq, List.take_succ_cons, Reply.encodeAll, List.append_assoc]
    rcases prefix_append_cases h with hfirst | ⟨rest, heq, hrest⟩
    · by_cases hall : bytes = reply.encode
      · exact hwhole [] (by rw [hall, List.append_nil]) List.nil_prefix
      · exact ⟨0, bytes, Nat.zero_le _, rfl, reply, hreply, hfirst, hall⟩
    · exact hwhole rest heq hrest

namespace RawRespClient

/-- The replies in the buffer settle the calls that have waited longest. -/
theorem progress_replies {replies : List Reply} (hreplies : ∀ reply ∈ replies, reply.WellFormed)
    {part : List UInt8} (hpart : Unfinished part) {c : RawRespClient} {turns : Nat}
    (hbuffer : c.buffer = Reply.encodeAll replies ++ part) (hcalls : replies.length ≤ c.pending.length)
    (hturns : replies.length < turns) :
    progress turns c = some
      { c with
        buffer := part
        pending := c.pending.drop replies.length
        settled := c.settled ++ c.pending.zip (replies.map fun reply => settlement reply.value) } := by
  induction replies generalizing c turns with
  | nil =>
    obtain ⟨turns, rfl⟩ := Nat.exists_eq_succ_of_ne_zero (Nat.ne_of_gt hturns)
    obtain rfl : c.buffer = part := hbuffer
    rw [progress, hpart.more]
    simp
  | cons reply replies ih =>
    obtain ⟨turns, rfl⟩ := Nat.exists_eq_succ_of_ne_zero (Nat.ne_of_gt (Nat.zero_lt_of_lt hturns))
    obtain ⟨call, pending, hpending⟩ :=
      List.exists_cons_of_length_pos (Nat.lt_of_lt_of_le (Nat.succ_pos _) hcalls)
    rw [Reply.encodeAll, List.append_assoc] at hbuffer
    have hlength : reply.encode.length ≤ c.buffer.length + 1 := by
      rw [hbuffer, List.length_append]
      omega
    have hparse : tryParseReply (c.buffer.length + 1) c.buffer 0 = _ :=
      tryParseReply_whole (hreplies reply List.mem_cons_self) hlength hbuffer
    have hrest : c.buffer.drop reply.encode.length = Reply.encodeAll replies ++ part := by
      rw [hbuffer, List.drop_left]
    rw [progress, hparse]
    dsimp only
    rw [hrest, settle, hpending]
    dsimp only
    rw [ih (fun r hr => hreplies r (List.mem_cons_of_mem _ hr)) rfl]
    · simp
    · rw [hpending] at hcalls
      exact Nat.le_of_succ_le_succ hcalls
    · exact Nat.lt_of_succ_lt_succ hturns

theorem length_le_encodeAll {replies : List Reply} (hreplies : ∀ reply ∈ replies, reply.WellFormed) :
    replies.length ≤ (Reply.encodeAll replies).length := by
  induction replies with
  | nil => exact Nat.le_refl 0
  | cons reply replies ih =>
    have hpos := List.length_pos_iff.mpr (encode_ne_nil (hreplies reply List.mem_cons_self))
    have hrest := ih fun r hr => hreplies r (List.mem_cons_of_mem _ hr)
    rw [Reply.encodeAll, List.length_append, List.length_cons]
    omega

/-! ## Runs -/

theorem received_append (events events' : List RespEvent) :
    received (events ++ events') = received events ++ received events' := by
  induction events with
  | nil => rfl
  | cons e events ih =>
    cases e with
    | send args => exact ih
    | data chunk => rw [List.cons_append, received, ih, received, List.append_assoc]

theorem sends_append (events events' : List RespEvent) :
    sends (events ++ events') = sends events + sends events' := by
  induction events with
  | nil => exact (Nat.zero_add _).symm
  | cons e events ih =>
    cases e with
    | send args => rw [List.cons_append, sends, ih, sends, Nat.add_right_comm]
    | data chunk => exact ih

/-- After some events the first `n` replies have arrived, and a part of the next. -/
structure Settled (replies : List Reply) (events : List RespEvent) (n : Nat) (c : RawRespClient) :
    Prop where
  arrived : received events = Reply.encodeAll (replies.take n) ++ c.buffer
  unfinished : Unfinished c.buffer
  calls : c.calls = sends events
  bound : n ≤ sends events ∧ n ≤ replies.length
  pending : c.pending = List.range' n (sends events - n)
  settled : c.settled = settlements (replies.take n)

variable {replies : List Reply} {events : List RespEvent} {n : Nat} {c : RawRespClient}

theorem settled_connected (replies : List Reply) : Settled replies [] 0 connected where
  arrived := rfl
  unfinished := unfinished_nil
  calls := rfl
  bound := ⟨Nat.le_refl 0, Nat.zero_le _⟩
  pending := rfl
  settled := rfl

theorem Settled.send (h : Settled replies events n c) (args : List (List Char)) :
    Settled replies (events ++ [.send args]) n (c.send args) := by
  have hsends : sends (events ++ [.send args]) = sends events + 1 := sends_append _ _
  have hreceived : received (events ++ [.send args]) = received events := by
    rw [received_append, received, received, List.append_nil]
  obtain ⟨hsent, hreplies⟩ := h.bound
  refine
    { arrived := hreceived.trans h.arrived
      unfinished := h.unfinished
      calls := ?calls
      bound := ⟨by omega, hreplies⟩
      pending := ?pending
      settled := h.settled }
  case calls =>
    rw [hsends, ← h.calls]
    rfl
  case pending =>
    have hcall : c.calls = n + (sends events - n) := by
      rw [h.calls]
      omega
    have hlength : sends events + 1 - n = sends events - n + 1 := by omega
    rw [hsends, hlength, List.range'_1_concat, ← h.pending, ← hcall]
    rfl

theorem zip_append_left {α β : Type} {l l' : List α} {r : List β} (h : l.length = r.length) :
    (l ++ l').zip r = l.zip r := by
  have hzip : (l ++ l').zip (r ++ []) = l.zip r ++ l'.zip [] := List.zip_append h
  rwa [List.append_nil, List.zip_nil_right, List.append_nil] at hzip

theorem settlements_append (before after : List Reply) :
    settlements (before ++ after) = settlements before ++
      (List.range' before.length after.length).zip (after.map fun reply => settlement reply.value) := by
  have hrange : List.range (before ++ after).length =
      List.range before.length ++ List.range' before.length after.length := by
    rw [List.range_eq_range', List.range_eq_range', List.length_append, ← List.range'_append_1,
      Nat.zero_add]
  rw [settlements, hrange, List.map_append, List.zip_append (by simp), settlements]

theorem Settled.data (h : Settled replies events n c)
    (hreplies : ∀ reply ∈ replies, reply.WellFormed) (chunk : List UInt8)
    (harrive : received (events ++ [.data chunk]) <+:
      Reply.encodeAll (replies.take (sends (events ++ [.data chunk])))) :
    ∃ n' c', c.onData chunk = some c' ∧ Settled replies (events ++ [.data chunk]) n' c' := by
  have hsends : sends (events ++ [.data chunk]) = sends events := sends_append _ _
  have hreceived : received (events ++ [.data chunk]) =
      Reply.encodeAll (replies.take n) ++ (c.buffer ++ chunk) := by
    rw [received_append, h.arrived, List.append_assoc, received, received, List.append_nil]
  obtain ⟨hsent, hlength⟩ := h.bound
  -- the replies that are still awaited begin with what is in the buffer
  have hawaited : replies.take (sends events) =
      replies.take n ++ (replies.drop n).take (sends events - n) := by
    rw [← List.take_add, Nat.add_sub_cancel' hsent]
  rw [hsends, hreceived, hawaited, Reply.encodeAll_append, List.prefix_append_right_inj] at harrive
  obtain ⟨m, part, hm, hbuffer, hpart⟩ := split_prefix
    (fun reply hr => hreplies reply (List.mem_of_mem_drop (List.mem_of_mem_take hr))) harrive
  rw [List.length_take, List.length_drop] at hm
  rw [List.take_take, Nat.min_eq_left (by omega)] at hbuffer
  have harrived : ∀ reply ∈ (replies.drop n).take m, reply.WellFormed :=
    fun reply hr => hreplies reply (List.mem_of_mem_drop (List.mem_of_mem_take hr))
  have hcount : ((replies.drop n).take m).length = m := by
    rw [List.length_take, List.length_drop]
    omega
  have hturns : ((replies.drop n).take m).length < (c.buffer ++ chunk).length + 1 := by
    have hle := length_le_encodeAll harrived
    rw [hbuffer, List.length_append]
    omega
  have hcalls : ((replies.drop n).take m).length ≤ c.pending.length := by
    rw [hcount, h.pending, List.length_range']
    omega
  have hprogress := progress_replies harrived hpart
    (c := { c with buffer := c.buffer ++ chunk }) hbuffer hcalls hturns
  have htake : replies.take (n + m) = replies.take n ++ (replies.drop n).take m := List.take_add
  have hwaiting : List.range' n (sends events - n) =
      List.range' n m ++ List.range' (n + m) (sends events - (n + m)) := by
    rw [List.range'_append_1]
    congr 1
    omega
  refine ⟨n + m, _, hprogress,
    { arrived := ?arrived
      unfinished := hpart
      calls := h.calls.trans hsends.symm
      bound := by omega
      pending := ?pending
      settled := ?settled }⟩
  case arrived =>
    rw [hreceived, hbuffer, htake, Reply.encodeAll_append, List.append_assoc]
  case pending =>
    show c.pending.drop _ = _
    rw [hcount, h.pending, hsends, hwaiting, List.drop_left' List.length_range']
  case settled =>
    show c.settled ++ c.pending.zip _ = _
    have hsame : (List.range' n m).length =
        (((replies.drop n).take m).map fun reply => settlement reply.value).length := by
      rw [List.length_range', List.length_map, hcount]
    rw [h.settled, h.pending, hwaiting, zip_append_left hsame, htake, settlements_append, hcount,
      List.length_take, Nat.min_eq_left hlength]

theorem Settled.run (h : Settled replies events n c)
    (hreplies : ∀ reply ∈ replies, reply.WellFormed) {rest : List RespEvent}
    (hanswered : AnsweredBy (events ++ rest) replies) :
    ∃ n' c', c.run rest = some c' ∧ Settled replies (events ++ rest) n' c' := by
  induction rest generalizing events n c with
  | nil => exact ⟨n, c, rfl, by rwa [List.append_nil]⟩
  | cons e rest ih =>
    have hsplit : events ++ e :: rest = events ++ [e] ++ rest := by simp
    have hstep : ∃ n' c', c.step e = some c' ∧ Settled replies (events ++ [e]) n' c' := by
      cases e with
      | send args => exact ⟨n, c.send args, rfl, h.send args⟩
      | data chunk =>
        exact h.data hreplies chunk (hanswered _ ⟨rest, hsplit.symm⟩)
    obtain ⟨n₁, c₁, hone, hsettled⟩ := hstep
    rw [hsplit] at hanswered ⊢
    obtain ⟨n', c', hrun, hend⟩ := ih hsettled hanswered
    refine ⟨n', c', ?_, hend⟩
    rw [RawRespClient.run, List.foldlM_cons, hone]
    exact hrun

/-- A client that has been sent all replies to its commands, in chunks of any kind, has settled every
call, each with its own reply and in the order of the calls, and has no byte left. -/
theorem calls_settled (hreplies : ∀ reply ∈ replies, reply.WellFormed)
    (hanswered : AnsweredBy events replies) (hsent : sends events = replies.length)
    (hall : received events = Reply.encodeAll replies) :
    ∃ c, connected.run events = some c ∧ c.settled = settlements replies ∧ c.pending = [] ∧
      c.buffer = [] := by
  obtain ⟨n, c, hrun, h⟩ := (settled_connected replies).run hreplies hanswered
  have hrest : Reply.encodeAll (replies.drop n) = c.buffer := by
    have harrived := hall.symm.trans h.arrived
    rw [← List.take_append_drop n replies, Reply.encodeAll_append, List.take_append_drop] at harrived
    exact List.append_cancel_left harrived
  have hdone := h.unfinished.not_encodeAll
    (fun reply hr => hreplies reply (List.mem_of_mem_drop hr)) hrest.symm
  have hn : n = replies.length := Nat.le_antisymm h.bound.2 (List.drop_eq_nil_iff.mp hdone)
  refine ⟨c, hrun, ?_, ?_, ?_⟩
  · rw [h.settled, hn, List.take_length]
  · rw [h.pending, List.nil_append, hsent, hn, Nat.sub_self]
    rfl
  · rw [← hrest, hdone]
    rfl

/-- The text "€\r\n" and a nested array, for two commands; the data is cut within the euro sign and
between a CR and its LF. -/
def nestedReplies : List Reply :=
  [.bulk 0 (Utf8.encode ['€', '\r', '\n']),
    .array 0 [.integer .minus 0 42, .nullBulk, .array 1 [.error (Utf8.encode ['E', 'R', 'R'])]]]

/-- Two calls, and their replies in pieces. -/
def fragmented : List RespEvent :=
  let bytes := Reply.encodeAll nestedReplies
  [.send ["GET".toList, "k".toList], .data (bytes.take 6), .data [],
    .send ["EVAL".toList], .data (subarray bytes 6 10), .data (subarray bytes 10 22),
    .data (bytes.drop 22)]

theorem nestedReplies_wellFormed : ∀ reply ∈ nestedReplies, reply.WellFormed := by
  have herror : (Reply.error (Utf8.encode ['E', 'R', 'R'])).WellFormed :=
    .error (by decide) (by decide)
  intro reply hreply
  rcases List.mem_cons.mp hreply with rfl | hreply
  · exact .bulk (by decide)
  · obtain rfl := List.mem_singleton.mp hreply
    refine .array (by decide) fun item hitem => ?_
    rcases List.mem_cons.mp hitem with rfl | hitem
    · exact .integer (by decide) (by decide)
    · rcases List.mem_cons.mp hitem with rfl | hitem
      · exact .nullBulk
      · obtain rfl := List.mem_singleton.mp hitem
        refine .array (by decide) fun item hitem => ?_
        obtain rfl := List.mem_singleton.mp hitem
        exact herror

theorem fragmented_settled : ∃ c, connected.run fragmented = some c ∧
    c.settled = settlements nestedReplies ∧ c.pending = [] ∧ c.buffer = [] :=
  calls_settled nestedReplies_wellFormed (by decide +kernel) (by decide +kernel) (by decide +kernel)

end RawRespClient

end SupplyChain
