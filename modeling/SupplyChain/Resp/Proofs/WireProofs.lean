import SupplyChain.Resp.Wire
import SupplyChain.Resp.Proofs.RawRespClientProofs

/-!
# Proofs: calls over a wire are calls one at a time

Whatever the pieces in which the bytes come, the server executes the commands of each connection in the order
in which they were sent, and each call is settled by the reply to its own command. So all the calls of all
clients are what they would be one after the other.
-/

namespace SupplyChain

open Resp RespEvent
open RawRespClient (Settled settled_connected settlements sends_append received_append)

variable {buf rest more part : List UInt8} {type : Char} {count len : Nat} {args : List (List Char)}

/-! ## More bytes do not change what has been read -/

theorem findCRLF_append (more : List UInt8) {n : Nat} (h : findCRLF buf = some n) :
    findCRLF (buf ++ more) = some n ∧ n + 2 ≤ buf.length := by
  induction buf generalizing n with
  | nil => cases h
  | cons b buf ih =>
    rw [findCRLF] at h
    cases buf with
    | nil =>
      rw [if_neg fun hc => by cases hc.2] at h
      cases h
    | cons b' buf =>
      rw [List.cons_append, findCRLF, List.cons_append, List.head?_cons]
      rw [List.head?_cons] at h
      split at h
      · rename_i hend
        obtain rfl := Option.some.inj h
        rw [if_pos hend]
        exact ⟨rfl, by simp⟩
      · rename_i hend
        obtain ⟨m, hm, rfl⟩ := Option.map_eq_some_iff.mp h
        obtain ⟨hmore, hlength⟩ := ih hm
        rw [if_neg hend, ← List.cons_append, hmore]
        refine ⟨rfl, ?_⟩
        rw [List.length_cons]
        omega

theorem readLength_append (h : readLength type buf = some (len, rest)) :
    readLength type (buf ++ more) = some (len, rest ++ more) := by
  cases buf with
  | nil => cases h
  | cons b buf =>
    rw [readLength] at h
    split at h
    · rename_i hb
      obtain ⟨n, hline, hlen⟩ := Option.bind_eq_some_iff.mp h
      obtain ⟨len', hlen', heq⟩ := Option.map_eq_some_iff.mp hlen
      obtain ⟨rfl, rfl⟩ := Prod.mk.inj heq
      obtain ⟨hmore, hlength⟩ := findCRLF_append more hline
      rw [List.cons_append, readLength, if_pos hb, hmore, Option.bind_some,
        List.take_append_of_le_length (by omega), hlen', List.drop_append_of_le_length hlength]
      rfl
    · cases h

theorem readArgs_append {args : List (List UInt8)} (h : readArgs count buf = some (args, rest)) :
    readArgs count (buf ++ more) = some (args, rest ++ more) := by
  induction count generalizing buf args with
  | zero =>
    obtain ⟨rfl, rfl⟩ := Prod.mk.inj (Option.some.inj h)
    rfl
  | succ count ih =>
    rw [readArgs] at h
    obtain ⟨⟨len, body⟩, hlength, hbody⟩ := Option.bind_eq_some_iff.mp h
    dsimp only at hbody
    split at hbody
    · cases hbody
    · rename_i hlong
      obtain ⟨⟨tail, rest'⟩, htail, heq⟩ := Option.map_eq_some_iff.mp hbody
      obtain ⟨rfl, rfl⟩ := Prod.mk.inj heq
      rw [readArgs, readLength_append hlength, Option.bind_some]
      dsimp only
      rw [if_neg (by rw [List.length_append]; omega), List.drop_append_of_le_length (by omega), ih htail,
        List.take_append_of_le_length (by omega)]
      rfl

theorem readCommand_append (more : List UInt8) {args : List (List UInt8)}
    (h : readCommand buf = some (args, rest)) :
    readCommand (buf ++ more) = some (args, rest ++ more) := by
  obtain ⟨⟨count, body⟩, hcount, hbody⟩ := Option.bind_eq_some_iff.mp h
  rw [readCommand, readLength_append hcount, Option.bind_some]
  exact readArgs_append hbody

/-! ## Commands are read as they were sent -/

theorem lengthOf_numeral (zeros n : Nat) : lengthOf (Decimal.numeral zeros n) = some n := by
  have hdigits : (Decimal.numeral zeros n).all Char.isDigit = true :=
    List.all_eq_true.mpr fun c hc => Decimal.isDigit_of_mem_numeral hc
  rw [lengthOf, if_pos ⟨Decimal.numeral_ne_nil zeros n, hdigits⟩, Decimal.ofDigitChars_numeral]

theorem readLength_frame (zeros n : Nat) (body : List UInt8) :
    readLength type (frame type (numeral .unsigned zeros n) body) = some (n, body) := by
  have hdecode : Utf8.decode (numeral .unsigned zeros n) = Decimal.numeral zeros n :=
    Utf8.decode_encode _
  rw [frame, List.cons_append, readLength, if_pos rfl, findCRLF_line (cr_notMem_numeral .unsigned zeros n),
    Option.bind_some, List.take_left, hdecode, lengthOf_numeral, Option.map_some]
  have hdrop : (numeral .unsigned zeros n ++ CR :: LF :: body).drop ((numeral .unsigned zeros n).length + 2) =
      body := by
    rw [← List.drop_drop, List.drop_left]
    rfl
  rw [hdrop]

theorem readArgs_bulks (args : List (List UInt8)) (rest : List UInt8) :
    readArgs args.length (Reply.encodeAll (args.map fun a => .bulk 0 a) ++ rest) = some (args, rest) := by
  induction args with
  | nil => rfl
  | cons a args ih =>
    rw [List.map_cons, Reply.encodeAll, List.length_cons, readArgs, Reply.encode, List.append_assoc,
      frame_append, readLength_frame, Option.bind_some]
    dsimp only
    have hdrop : (a ++ [CR, LF] ++ (Reply.encodeAll (args.map fun a => .bulk 0 a) ++ rest)).drop
        (a.length + 2) = Reply.encodeAll (args.map fun a => .bulk 0 a) ++ rest :=
      List.drop_left' (by simp)
    rw [if_neg (by simp), hdrop, ih, List.append_assoc, List.take_left]
    rfl

theorem readCommand_encodeCommand (args : List (List Char)) (rest : List UInt8) :
    readCommand (encodeCommand args ++ rest) = some (args.map Utf8.encode, rest) := by
  have hmap : (args.map fun a => Reply.bulk 0 (Utf8.encode a)) =
      (args.map Utf8.encode).map fun a => .bulk 0 a := by
    rw [List.map_map]
    rfl
  have hargs := readArgs_bulks (args.map Utf8.encode) rest
  rw [List.length_map] at hargs
  rw [encodeCommand_eq, hmap, Reply.encode, frame_append, readCommand, List.length_map, List.length_map,
    readLength_frame, Option.bind_some]
  exact hargs

/-- `readCommand` is one way for a server to read. -/
def CommandReader.simple : CommandReader where
  read := readCommand
  read_append more h := readCommand_append more h
  read_encodeCommand := readCommand_encodeCommand

namespace CommandReader

variable {reader : CommandReader}

/-- Of the commands under way, the server reads the first one, or waits for the rest of it. -/
theorem read_sent {commands : List (List (List Char))}
    (hsent : commands.flatMap encodeCommand = buf ++ more) {args : List (List UInt8)}
    (h : reader.read buf = some (args, rest)) :
    ∃ command later, commands = command :: later ∧ args = command.map Utf8.encode ∧
      later.flatMap encodeCommand = rest ++ more := by
  have hread := reader.read_append more h
  rw [← hsent] at hread
  cases commands with
  | nil =>
    -- what is read at once would be read before any command
    have hcommand := reader.read_append (encodeCommand []) hread
    have hframed := reader.read_encodeCommand [] []
    rw [List.append_nil] at hframed
    rw [List.flatMap_nil, List.nil_append, hframed] at hcommand
    obtain ⟨-, hrest⟩ := Prod.mk.inj (Option.some.inj hcommand)
    exact absurd (List.append_eq_nil_iff.mp hrest.symm).2 (by decide)
  | cons command later =>
    rw [List.flatMap_cons, read_encodeCommand] at hread
    obtain ⟨hargs, hrest⟩ := Prod.mk.inj (Option.some.inj hread)
    exact ⟨command, later, rfl, hargs.symm, hrest⟩

theorem eq_nil_of_read_none {commands : List (List (List Char))}
    (h : reader.read (commands.flatMap encodeCommand) = none) : commands = [] := by
  cases commands with
  | nil => rfl
  | cons command later =>
    rw [List.flatMap_cons, read_encodeCommand] at h
    cases h

end CommandReader

/-! ## What a server has replied -/

section Server

variable {ι σ : Type} {server : RespServer σ} {s s₀ : σ} {i : ι} {log : List (ServerEvent ι)}

theorem RespServer.after_concat (log : List (ServerEvent ι)) (event : ServerEvent ι) :
    server.after s (log ++ [event]) = server.apply (server.after s log) event := List.foldl_concat ..

variable [DecidableEq ι]

theorem RespServer.replies_command (j : ι) (args : List (List UInt8)) :
    server.replies i s (log ++ [.command j args]) =
      server.replies i s log ++ if j = i then [(server.execute args (server.after s log)).2] else [] := by
  induction log generalizing s with
  | nil => by_cases hj : j = i <;> simp [replies, after, hj]
  | cons event log ih =>
    cases event with
    | command j' args' =>
      by_cases hj' : j' = i
      · rw [List.cons_append, replies, replies, if_pos hj', if_pos hj', ih]
        rfl
      · rw [List.cons_append, replies, replies, if_neg hj', if_neg hj', ih]
        rfl
    | elapse ms => exact ih

theorem RespServer.replies_elapse (ms : Nat) :
    server.replies i s (log ++ [.elapse ms]) = server.replies i s log := by
  induction log generalizing s with
  | nil => rfl
  | cons event log ih =>
    cases event with
    | command j' args' =>
      by_cases hj' : j' = i
      · rw [List.cons_append, replies, replies, if_pos hj', if_pos hj', ih]
      · rw [List.cons_append, replies, replies, if_neg hj', if_neg hj', ih]
    | elapse ms' => exact ih

theorem RespServer.replies_wellFormed : ∀ reply ∈ server.replies i s log, reply.WellFormed := by
  induction log generalizing s with
  | nil => exact List.forall_mem_nil _
  | cons event log ih =>
    cases event with
    | command j args =>
      rw [replies]
      split
      · exact List.forall_mem_cons.mpr ⟨server.wellFormed args s, ih⟩
      · exact ih
    | elapse ms => exact ih

theorem ServerEvent.commandsOf_command (j : ι) (args : List (List UInt8)) :
    commandsOf i (log ++ [.command j args]) = commandsOf i log ++ if j = i then [args] else [] := by
  by_cases hj : j = i <;> simp [commandsOf, hj]

theorem ServerEvent.commandsOf_elapse (ms : Nat) : commandsOf i (log ++ [.elapse ms]) = commandsOf i log := by
  simp [commandsOf]

end Server

/-! ## The invariant of a connection -/

namespace Wire

variable {ι σ : Type} [DecidableEq ι] {server : RespServer σ} {s₀ : σ} {w w' : Wire ι σ} {i : ι}
  {sent : List (List (List Char))}

/-- The replies that the server has written to a connection. -/
def written (server : RespServer σ) (s₀ : σ) (w : Wire ι σ) (i : ι) : List Reply :=
  server.replies i s₀ w.log

/-- The commands sent have been executed up to some point, and from there their bytes are under way. The
replies have come up to some point, and from there their bytes are under way. -/
structure Linked (server : RespServer σ) (s₀ : σ) (w : Wire ι σ) (i : ι) (sent : List (List (List Char))) :
    Prop where
  bound : (written server s₀ w i).length ≤ sent.length
  executed : ServerEvent.commandsOf i w.log =
    (sent.take (written server s₀ w i).length).map (List.map Utf8.encode)
  waiting : (sent.drop (written server s₀ w i).length).flatMap encodeCommand = w.inbox i ++ w.toServer i
  answered : ∃ events n, Settled (written server s₀ w i) events n (w.client i) ∧
    sends events = sent.length ∧
    received events ++ w.toClient i = Reply.encodeAll (written server s₀ w i)

/-- The first `n` replies are still the first after another reply. -/
theorem settled_more {replies : List Reply} {events : List RespEvent} {n : Nat} {c : RawRespClient}
    (h : Settled replies events n c) (reply : Reply) : Settled (replies ++ [reply]) events n c := by
  have htake : (replies ++ [reply]).take n = replies.take n := List.take_append_of_le_length h.bound.2
  refine ⟨?_, h.unfinished, h.calls, ⟨h.bound.1, ?_⟩, h.pending, ?_⟩
  · rw [htake, h.arrived]
  · rw [List.length_append]
    exact Nat.le_add_right_of_le h.bound.2
  · rw [htake, h.settled]

theorem linked_start (i : ι) : Linked server s₀ (start s₀) i [] where
  bound := Nat.le_refl _
  executed := rfl
  waiting := rfl
  answered := ⟨[], 0, settled_connected [], rfl, rfl⟩

/-- Nothing has changed for a connection. -/
theorem Linked.of_same (h : Linked server s₀ w i sent) (hwritten : written server s₀ w' i = written server s₀ w i)
    (hcommands : ServerEvent.commandsOf i w'.log = ServerEvent.commandsOf i w.log)
    (hclient : w'.client i = w.client i) (hserver : w'.inbox i ++ w'.toServer i = w.inbox i ++ w.toServer i)
    (htoClient : w'.toClient i = w.toClient i) : Linked server s₀ w' i sent := by
  obtain ⟨hbound, hexecuted, hwaiting, events, n, hsettled, hsends, hreceived⟩ := h
  refine ⟨?_, ?_, ?_, events, n, ?_, hsends, ?_⟩
  · rwa [hwritten]
  · rwa [hwritten, hcommands]
  · rw [hwritten, hserver]
    exact hwaiting
  · rwa [hwritten, hclient]
  · rwa [hwritten, htoClient]

theorem Linked.send (h : Linked server s₀ w i sent) (args : List (List Char))
    (hs : w.step server (.send i args) = some w') : Linked server s₀ w' i (sent ++ [args]) := by
  obtain rfl := Option.some.inj hs
  obtain ⟨hbound, hexecuted, hwaiting, events, n, hsettled, hsends, hreceived⟩ := h
  refine ⟨?_, ?_, ?_, events ++ [.send args], n, ?_, ?_, ?_⟩
  · rw [List.length_append]
    exact Nat.le_add_right_of_le hbound
  · show _ = ((sent ++ [args]).take (written server s₀ w i).length).map _
    rw [List.take_append_of_le_length hbound]
    exact hexecuted
  · show ((sent ++ [args]).drop (written server s₀ w i).length).flatMap encodeCommand =
      w.inbox i ++ Function.update w.toServer i _ i
    rw [List.drop_append_of_le_length hbound, List.flatMap_append, hwaiting, Function.update_self,
      List.append_assoc, List.flatMap_singleton]
  · show Settled (written server s₀ w i) _ n (Function.update w.client i _ i)
    rw [Function.update_self]
    exact hsettled.send args
  · rw [sends_append, hsends, List.length_append]
    rfl
  · rw [received_append]
    show received events ++ [] ++ w.toClient i = _
    rw [List.append_nil]
    exact hreceived

theorem Linked.carry (h : Linked server s₀ w i sent) {n : Nat} (hs : w.step server (.carry i n) = some w') :
    Linked server s₀ w' i sent := by
  obtain rfl := Option.some.inj hs
  refine h.of_same rfl rfl rfl ?_ rfl
  show Function.update w.inbox i _ i ++ Function.update w.toServer i _ i = _
  rw [Function.update_self, Function.update_self, List.append_assoc, List.take_append_drop]

theorem Linked.execute (h : Linked server s₀ w i sent) (hstore : w.store = server.after s₀ w.log)
    (hs : w.step server (.execute i) = some w') : Linked server s₀ w' i sent := by
  obtain ⟨⟨args, rest⟩, hread, rfl⟩ := Option.map_eq_some_iff.mp hs
  obtain ⟨hbound, hexecuted, hwaiting, events, n, hsettled, hsends, hreceived⟩ := h
  obtain ⟨command, later, hnext, rfl, hlater⟩ := server.read_sent hwaiting hread
  generalize hreply : (server.execute (command.map Utf8.encode) w.store).2 = reply
  have hwritten : server.replies i s₀ (w.log ++ [.command i (command.map Utf8.encode)]) =
      written server s₀ w i ++ [reply] := by
    rw [RespServer.replies_command, if_pos rfl, ← hstore, hreply]
    rfl
  have hlength : (written server s₀ w i).length < sent.length := by
    by_contra hle
    rw [List.drop_eq_nil_of_le (Nat.le_of_not_lt hle)] at hnext
    cases hnext
  have htake : sent.take ((written server s₀ w i).length + 1) =
      sent.take (written server s₀ w i).length ++ [command] := by
    rw [List.take_add, hnext]
    rfl
  have hdrop : sent.drop ((written server s₀ w i).length + 1) = later := by
    rw [← List.drop_drop, hnext]
    rfl
  refine ⟨?_, ?_, ?_, events, n, ?_, hsends, ?_⟩
  · show (server.replies i s₀ (w.log ++ _)).length ≤ sent.length
    rw [hwritten, List.length_append]
    exact hlength
  · show ServerEvent.commandsOf i (w.log ++ _) = (sent.take (server.replies i s₀ (w.log ++ _)).length).map _
    rw [hwritten, List.length_append, List.length_singleton, htake, List.map_append, ← hexecuted,
      ServerEvent.commandsOf_command, if_pos rfl]
    rfl
  · show (sent.drop (server.replies i s₀ (w.log ++ _)).length).flatMap encodeCommand =
      Function.update w.inbox i rest i ++ w.toServer i
    rw [hwritten, List.length_append, List.length_singleton, hdrop, hlater, Function.update_self]
  · show Settled (server.replies i s₀ (w.log ++ _)) events n (w.client i)
    rw [hwritten]
    exact settled_more hsettled reply
  · show received events ++ Function.update w.toClient i _ i = Reply.encodeAll (server.replies i s₀ (w.log ++ _))
    rw [hwritten, Function.update_self, hreply, ← List.append_assoc, hreceived, Reply.encodeAll_append,
      Reply.encodeAll, Reply.encodeAll, List.append_nil]

/-- What comes to the client is a part of the replies to its commands. -/
theorem Linked.onData (h : Linked server s₀ w i sent) (m : Nat) :
    ∃ c events n, (w.client i).onData ((w.toClient i).take m) = some c ∧
      Settled (written server s₀ w i) events n c ∧ sends events = sent.length ∧
      received events ++ (w.toClient i).drop m = Reply.encodeAll (written server s₀ w i) := by
  obtain ⟨hbound, -, -, events, n, hsettled, hsends, hreceived⟩ := h
  have hsends' : sends (events ++ [.data ((w.toClient i).take m)]) = sent.length := by
    rw [sends_append, hsends]
    rfl
  have hreceived' : received (events ++ [.data ((w.toClient i).take m)]) ++ (w.toClient i).drop m =
      Reply.encodeAll (written server s₀ w i) := by
    rw [received_append, received, received, List.append_nil, List.append_assoc, List.take_append_drop,
      hreceived]
  have harrive : received (events ++ [.data ((w.toClient i).take m)]) <+:
      Reply.encodeAll ((written server s₀ w i).take (sends (events ++ [.data ((w.toClient i).take m)]))) := by
    rw [hsends', List.take_of_length_le hbound, ← hreceived']
    exact List.prefix_append _ _
  obtain ⟨n', c', hdata, hsettled'⟩ := hsettled.data RespServer.replies_wellFormed _ harrive
  exact ⟨c', _, n', hdata, hsettled', hsends', hreceived'⟩

theorem Linked.deliver (h : Linked server s₀ w i sent) {m : Nat}
    (hs : w.step server (.deliver i m) = some w') : Linked server s₀ w' i sent := by
  obtain ⟨c, hdata, rfl⟩ := Option.map_eq_some_iff.mp hs
  obtain ⟨c', events, n, hdata', hsettled, hsends, hreceived⟩ := h.onData m
  obtain rfl := Option.some.inj (hdata.symm.trans hdata')
  refine ⟨h.bound, h.executed, h.waiting, events, n, ?_, hsends, ?_⟩
  · show Settled (written server s₀ w i) events n (Function.update w.client i c i)
    rw [Function.update_self]
    exact hsettled
  · show received events ++ Function.update w.toClient i _ i = _
    rw [Function.update_self]
    exact hreceived

/-! ## Steps and runs -/

/-- All connections are linked to one server. -/
structure Inv (server : RespServer σ) (s₀ : σ) (w : Wire ι σ) (sent : ι → List (List (List Char))) : Prop where
  store : w.store = server.after s₀ w.log
  linked : ∀ i, Linked server s₀ w i (sent i)

theorem inv_start : Inv server s₀ (start s₀ : Wire ι σ) fun _ => [] := ⟨rfl, linked_start⟩

theorem sentBy_append (actions actions' : List (WireAction ι)) :
    WireAction.sentBy i (actions ++ actions') = WireAction.sentBy i actions ++ WireAction.sentBy i actions' :=
  List.filterMap_append ..

theorem Inv.step {sent : ι → List (List (List Char))} (h : Inv server s₀ w sent) {a : WireAction ι}
    (hs : w.step server a = some w') :
    (Inv server s₀ w' fun i => sent i ++ WireAction.sentBy i [a]) ∧ w.log <+: w'.log := by
  cases a with
  | send j args =>
    refine ⟨⟨?_, fun i => ?_⟩, ?_⟩
    · obtain rfl := Option.some.inj hs
      exact h.store
    · by_cases hj : j = i
      · subst hj
        have hsent : WireAction.sentBy j [.send j args] = [args] := by simp [WireAction.sentBy]
        rw [hsent]
        exact (h.linked j).send args hs
      · have hsent : WireAction.sentBy i [.send j args] = [] := by simp [WireAction.sentBy, hj]
        obtain rfl := Option.some.inj hs
        rw [hsent, List.append_nil]
        refine (h.linked i).of_same rfl rfl ?_ ?_ rfl
        · exact Function.update_of_ne (Ne.symm hj) _ _
        · exact congrArg (w.inbox i ++ ·) (Function.update_of_ne (Ne.symm hj) _ _)
    · obtain rfl := Option.some.inj hs
      exact List.prefix_refl _
  | carry j n =>
    have hsent : ∀ i, WireAction.sentBy i [.carry j n] = [] := fun i => rfl
    refine ⟨⟨?_, fun i => ?_⟩, ?_⟩
    · obtain rfl := Option.some.inj hs
      exact h.store
    · rw [hsent, List.append_nil]
      by_cases hj : j = i
      · subst hj
        exact (h.linked j).carry hs
      · obtain rfl := Option.some.inj hs
        refine (h.linked i).of_same rfl rfl rfl ?_ rfl
        exact congrArg₂ (· ++ ·) (Function.update_of_ne (Ne.symm hj) _ _)
          (Function.update_of_ne (Ne.symm hj) _ _)
    · obtain rfl := Option.some.inj hs
      exact List.prefix_refl _
  | execute j =>
    have hsent : ∀ i, WireAction.sentBy i [.execute j] = [] := fun i => rfl
    refine ⟨⟨?_, fun i => ?_⟩, ?_⟩
    · obtain ⟨⟨args, rest⟩, -, rfl⟩ := Option.map_eq_some_iff.mp hs
      show (server.execute args w.store).1 = _
      rw [RespServer.after_concat, ← h.store]
      rfl
    · rw [hsent, List.append_nil]
      by_cases hj : j = i
      · subst hj
        exact (h.linked j).execute h.store hs
      · obtain ⟨⟨args, rest⟩, -, rfl⟩ := Option.map_eq_some_iff.mp hs
        refine (h.linked i).of_same ?_ ?_ rfl ?_ ?_
        · show server.replies i s₀ (w.log ++ _) = server.replies i s₀ w.log
          rw [RespServer.replies_command, if_neg hj, List.append_nil]
        · rw [ServerEvent.commandsOf_command, if_neg hj, List.append_nil]
        · exact congrArg (· ++ w.toServer i) (Function.update_of_ne (Ne.symm hj) _ _)
        · exact Function.update_of_ne (Ne.symm hj) _ _
    · obtain ⟨⟨args, rest⟩, -, rfl⟩ := Option.map_eq_some_iff.mp hs
      exact List.prefix_append _ _
  | deliver j n =>
    have hsent : ∀ i, WireAction.sentBy i [.deliver j n] = [] := fun i => rfl
    refine ⟨⟨?_, fun i => ?_⟩, ?_⟩
    · obtain ⟨c, -, rfl⟩ := Option.map_eq_some_iff.mp hs
      exact h.store
    · rw [hsent, List.append_nil]
      by_cases hj : j = i
      · subst hj
        exact (h.linked j).deliver hs
      · obtain ⟨c, -, rfl⟩ := Option.map_eq_some_iff.mp hs
        exact (h.linked i).of_same rfl rfl (Function.update_of_ne (Ne.symm hj) _ _) rfl
          (Function.update_of_ne (Ne.symm hj) _ _)
    · obtain ⟨c, -, rfl⟩ := Option.map_eq_some_iff.mp hs
      exact List.prefix_refl _
  | elapse ms =>
    have hsent : ∀ i : ι, WireAction.sentBy i [.elapse ms] = [] := fun i => rfl
    obtain rfl := Option.some.inj hs
    refine ⟨⟨?_, fun i => ?_⟩, List.prefix_append _ _⟩
    · show server.elapse ms w.store = _
      rw [RespServer.after_concat, ← h.store]
      rfl
    · rw [hsent, List.append_nil]
      exact (h.linked i).of_same (RespServer.replies_elapse ms) (ServerEvent.commandsOf_elapse ms) rfl rfl rfl

theorem run_cons {a : WireAction ι} {actions : List (WireAction ι)} :
    w.run server (a :: actions) = some w' ↔
      ∃ w₁, w.step server a = some w₁ ∧ w₁.run server actions = some w' := by
  rw [Wire.run, List.foldlM_cons]
  exact Option.bind_eq_some_iff

theorem Inv.run {sent : ι → List (List (List Char))} (h : Inv server s₀ w sent)
    {actions : List (WireAction ι)} (hr : w.run server actions = some w') :
    (Inv server s₀ w' fun i => sent i ++ WireAction.sentBy i actions) ∧ w.log <+: w'.log := by
  induction actions generalizing w sent with
  | nil =>
    obtain rfl := Option.some.inj hr
    refine ⟨⟨h.store, fun i => ?_⟩, List.prefix_refl _⟩
    have hnone : WireAction.sentBy i ([] : List (WireAction ι)) = [] := rfl
    rw [hnone, List.append_nil]
    exact h.linked i
  | cons a actions ih =>
    obtain ⟨w₁, hs, hr⟩ := run_cons.mp hr
    obtain ⟨hinv₁, hlog₁⟩ := h.step hs
    obtain ⟨hinv, hlog⟩ := ih hinv₁ hr
    refine ⟨⟨hinv.store, fun i => ?_⟩, hlog₁.trans hlog⟩
    have hsplit : WireAction.sentBy i (a :: actions) = WireAction.sentBy i [a] ++ WireAction.sentBy i actions :=
      sentBy_append [a] actions
    rw [hsplit, ← List.append_assoc]
    exact hinv.linked i

theorem run_append {before after : List (WireAction ι)} :
    w.run server (before ++ after) = some w' ↔
      ∃ w₁, w.run server before = some w₁ ∧ w₁.run server after = some w' := by
  rw [Wire.run, List.foldlM_append]
  exact Option.bind_eq_some_iff

/-! ## The calls of all clients -/

/-- The settled calls of a client have the replies to its first commands. -/
theorem Linked.settled (h : Linked server s₀ w i sent) :
    (w.client i).settled <+: settlements (written server s₀ w i) := by
  obtain ⟨events, n, hsettled, -, -⟩ := h.answered
  rw [hsettled.settled]
  have hsplit := RawRespClient.settlements_append ((written server s₀ w i).take n) ((written server s₀ w i).drop n)
  rw [List.take_append_drop] at hsplit
  rw [hsplit]
  exact List.prefix_append _ _

/-- When nothing is under way, everything has been executed and everyone has been told. -/
theorem Linked.quiet (h : Linked server s₀ w i sent) (hquiet : Quiet server w i) :
    ServerEvent.commandsOf i w.log = sent.map (List.map Utf8.encode) ∧
      (w.client i).settled = settlements (written server s₀ w i) ∧ (w.client i).pending = [] := by
  obtain ⟨hbound, hexecuted, hwaiting, events, n, hsettled, hsends, hreceived⟩ := h
  rw [hquiet.toServer, List.append_nil] at hwaiting
  have hdone := server.eq_nil_of_read_none (hwaiting ▸ hquiet.inbox)
  have hcount : (written server s₀ w i).length = sent.length :=
    Nat.le_antisymm hbound (List.drop_eq_nil_iff.mp hdone)
  rw [hquiet.toClient, List.append_nil] at hreceived
  have hrest : Reply.encodeAll ((written server s₀ w i).drop n) = (w.client i).buffer := by
    have harrived := hreceived.symm.trans hsettled.arrived
    rw [← List.take_append_drop n (written server s₀ w i), Reply.encodeAll_append,
      List.take_append_drop] at harrived
    exact List.append_cancel_left harrived
  have hall := hsettled.unfinished.not_encodeAll
    (fun reply hr => RespServer.replies_wellFormed reply (List.mem_of_mem_drop hr)) hrest.symm
  have hn : n = (written server s₀ w i).length :=
    Nat.le_antisymm hsettled.bound.2 (List.drop_eq_nil_iff.mp hall)
  refine ⟨?_, ?_, ?_⟩
  · rw [hexecuted, hcount, List.take_length]
  · rw [hsettled.settled, hn, List.take_length]
  · rw [hsettled.pending, hsends, hn, hcount, Nat.sub_self]
    rfl

/-- Whatever the pieces, the server has executed one command after the other: of each client the first ones
it sent, in its order. Its settled calls have been told the replies to these, one by one. What was executed
before comes before what is sent later. Nothing can go wrong with a client, and once nothing is under way for
it, it has been told everything. -/
theorem wire_serializes {before after : List (WireAction ι)} {w₁ : Wire ι σ}
    (hbefore : (start s₀).run server before = some w₁) (hafter : w₁.run server after = some w) :
    w.store = server.after s₀ w.log ∧ w₁.log <+: w.log ∧
      (∀ i, ServerEvent.commandsOf i w.log <+:
          (WireAction.sentBy i (before ++ after)).map (List.map Utf8.encode) ∧
        (w.client i).settled <+: settlements (server.replies i s₀ w.log) ∧
        (Quiet server w i →
          ServerEvent.commandsOf i w.log =
            (WireAction.sentBy i (before ++ after)).map (List.map Utf8.encode) ∧
          (w.client i).settled = settlements (server.replies i s₀ w.log) ∧ (w.client i).pending = [])) ∧
      ∀ i m, (w.step server (.deliver i m)).isSome = true := by
  obtain ⟨hinv, -⟩ := inv_start.run (run_append.mpr ⟨w₁, hbefore, hafter⟩)
  obtain ⟨hinv₁, -⟩ := inv_start.run hbefore
  obtain ⟨-, hlog⟩ := hinv₁.run hafter
  refine ⟨hinv.store, hlog, fun i => ⟨?_, (hinv.linked i).settled, (hinv.linked i).quiet⟩, fun i m => ?_⟩
  · rw [(hinv.linked i).executed]
    exact (List.take_prefix _ _).map _
  · obtain ⟨c, -, -, hdata, -⟩ := (hinv.linked i).onData m
    rw [Wire.step, hdata]
    rfl

/-- A server that keeps one value, which `SET` changes and every other command asks for. -/
def register : RespServer (List UInt8) where
  toCommandReader := .simple
  execute args value :=
    match args with
    | [_, value'] => (value', .simple (Utf8.encode "OK".toList))
    | _ => (value, if value.length < 2 ^ 53 then .bulk 0 value else .nullBulk)
  elapse _ value := value
  wellFormed args value := by
    split
    · exact .simple (by decide) (by decide)
    · dsimp only
      split
      · exact .bulk ‹_›
      · exact .nullBulk

/-- Two clients, of which the second asks while the command of the first is on its way in pieces. -/
def setAndGet : List (WireAction Bool) :=
  [.send false ["SET".toList, "€".toList], .carry false 7, .send true ["GET".toList], .carry true 100,
    .carry false 100, .execute false, .execute true, .deliver true 6, .deliver false 9, .deliver true 100]

theorem setAndGet_serialized : ∃ w, (start [] : Wire Bool (List UInt8)).run register setAndGet = some w ∧
    w.store = Utf8.encode "€".toList ∧
    ∀ i, (w.client i).settled = settlements (register.replies i [] w.log) ∧ (w.client i).pending = [] := by
  have hrun : ((start [] : Wire Bool (List UInt8)).run register setAndGet).map (fun w =>
      (w.store, [w.toServer false, w.toServer true, w.toClient false, w.toClient true],
        (register.read (w.inbox false)).isNone && (register.read (w.inbox true)).isNone)) =
        some (Utf8.encode "€".toList, [[], [], [], []], true) := by
    decide +kernel
  obtain ⟨w, hr, hseen⟩ := Option.map_eq_some_iff.mp hrun
  simp only [Prod.mk.injEq, List.cons.injEq, and_true, Bool.and_eq_true, Option.isNone_iff_eq_none] at hseen
  obtain ⟨hstore, ⟨hserver, hserver', hclient, hclient'⟩, hinbox, hinbox'⟩ := hseen
  have hbefore : (start [] : Wire Bool (List UInt8)).run register [] = some (start []) := rfl
  refine ⟨w, hr, hstore, fun i => ((wire_serializes hbefore hr).2.2.1 i).2.2 ?_ |>.2⟩
  cases i with
  | false => exact ⟨hserver, hinbox, hclient⟩
  | true => exact ⟨hserver', hinbox', hclient'⟩

end Wire

end SupplyChain
