import SupplyChain.Inventory.RedisServer
import SupplyChain.Inventory.Proofs.ExactScriptsProofs
import SupplyChain.Resp.Proofs.WireProofs
import Mathlib.Data.List.Forall2

/-!
# Proofs: the inventory over the wire

The services talk to the server in bytes, on connections of their own. What they do and what they are told is
what it would be if their calls were made one at a time.
-/

namespace SupplyChain

open Resp
open InventoryService (stockKey reservationKey)
open RawRespClient (settlement settlements)

variable {redis : RedisServer} {ofInt : Int → redis.lua.Num} {r : Redis} {c : InventoryCall}
  {args : List String} {n : Int}

/-! ## Texts and numbers survive the way -/

theorem toList_ofNat (m : Nat) : (toString (Int.ofNat m)).toList = Decimal.numeral 0 m := Nat.toList_repr

theorem toList_negSucc (m : Nat) :
    (toString (Int.negSucc m)).toList = '-' :: Decimal.numeral 0 (m + 1) := by
  show ("-" ++ (m + 1).repr).toList = _
  rw [String.toList_append, Nat.toList_repr]
  rfl

theorem parseNumber_toString (hrange : n.natAbs < 2 ^ 53) :
    Decimal.parseNumber (toString n).toList = some n := by
  cases n with
  | ofNat m =>
    have hm : m < 2 ^ 53 := hrange
    rw [toList_ofNat, Decimal.parseNumber_numeral, Decimal.nearestDouble_of_lt hm]
    rfl
  | negSucc m =>
    have hm : m + 1 < 2 ^ 53 := hrange
    rw [toList_negSucc, Decimal.parseNumber, Decimal.natural_numeral, Decimal.nearestDouble_of_lt hm]
    rfl

theorem value_textReply {s : String} (hshort : (Utf8.encode s.toList).length ≤ MAX_BULK) :
    (textReply s).value = .text s.toList := by
  rw [textReply, if_pos hshort, Resp.Reply.value_bulk_encode]

theorem value_integerReply (hrange : n.natAbs < 2 ^ 53) : (integerReply n).value = .number (some n) := by
  have hmod : n.bmod (2 ^ 64) = n := Int.bmod_eq_of_le (by omega) (by omega)
  rw [integerReply, hmod, Resp.Reply.value_integer hrange]
  split
  · rename_i hneg
    rw [Sign.apply]
    congr 2
    omega
  · rw [Sign.apply]
    congr 2
    omega

theorem length_utf8_le (text : List Char) : (Utf8.encode text).length ≤ 4 * text.length := by
  induction text with
  | nil => exact Nat.le_refl 0
  | cons c text ih =>
    have hchar := Char.utf8Size_le_four c
    rw [Utf8.encode, List.flatMap_cons, List.length_append, String.length_utf8EncodeChar, List.length_cons]
    rw [Utf8.encode] at ih
    omega

theorem length_numeral_le {m : Nat} (hm : m < 2 ^ 53) : (Decimal.numeral 0 m).length ≤ 16 :=
  (Nat.length_toDigits_le_iff (by decide) (by decide)).mpr (Nat.lt_trans hm (by decide))

/-- A number of 53 bits has a short text. -/
theorem length_toString (hrange : n.natAbs < 2 ^ 53) :
    (Utf8.encode (toString n).toList).length ≤ MAX_BULK := by
  have hdigits : (toString n).toList.length ≤ 17 := by
    cases n with
    | ofNat m =>
      have hlength := length_numeral_le (show m < 2 ^ 53 from hrange)
      rw [toList_ofNat]
      omega
    | negSucc m =>
      have hlength := length_numeral_le (show m + 1 < 2 ^ 53 from hrange)
      rw [toList_negSucc, List.length_cons]
      omega
  have hbytes := length_utf8_le (toString n).toList
  have hmax : 68 ≤ MAX_BULK := by decide
  omega

/-! ## One call -/

/-- A call is executed as it is in the model of the services, and its reply is read as what it is answered
there. -/
def Agrees (redis : RedisServer) (r : Redis) (c : InventoryCall) (args : List String) : Prop :=
  ∃ reply, redis.execute args (.ofRedis r) = (.ofRedis (Deployment.server.call r c).1, reply) ∧
    c.reading (settlement reply.value) = some (Deployment.server.call r c).2

theorem agrees_setStock {w : WarehouseId} {s : Sku} {qty : Int} :
    Agrees redis r (.setStock w s qty) ["SET", stockKey w s, toString qty] := by
  refine ⟨lineReply "OK", ?_, ?_⟩
  · rw [redis.set, Prod.mk.injEq]
    refine ⟨?_, rfl⟩
    show _ = Keyspace.ofRedis (r.set (stockKey w s) (Decimal.number (toString qty)))
    rw [Decimal.number_toString, Redis.set, Keyspace.put_ofRedis rfl]
  · rfl

theorem agrees_getAvailable (hvalues : r.Ranged) {w : WarehouseId} {s : Sku} :
    Agrees redis r (.getAvailable w s) ["GET", stockKey w s] := by
  have hget : (Keyspace.ofRedis r).get (stockKey w s) = .ok ((r.lookup (stockKey w s)).map toString) :=
    Keyspace.get_ofRedis
  have hcall : Deployment.server.call r (.getAvailable w s) =
      (r, .available (((r.lookup (stockKey w s)).map fun v => Decimal.number (toString v)).getD 0)) := by
    simp only [Deployment.call, Deployment.server, RedisLike.getAvailable, RedisLike.server]
    cases r.lookup (stockKey w s) with
    | none => rfl
    | some v => rfl
  unfold Agrees
  rw [redis.get, hcall, hget]
  cases hv : r.lookup (stockKey w s) with
  | none => exact ⟨.nullBulk, rfl, rfl⟩
  | some v =>
    have hrange := hvalues _ v hv
    refine ⟨textReply (toString v), rfl, ?_⟩
    rw [value_textReply (length_toString hrange)]
    simp only [settlement, InventoryCall.reading, parseNumber_toString hrange, Option.map_some,
      Option.getD_some, Decimal.number_toString]

theorem settlement_scriptReply {status : String} {value : Int}
    (hshort : (Utf8.encode status.toList).length ≤ MAX_BULK) (hrange : value.natAbs < 2 ^ 53) :
    settlement (redis.toRedisScripts.scriptReply (.ok (status, value))).value =
      .resolved (.array [.text status.toList, .number (some value)]) := by
  rw [RedisScripts.scriptReply, Resp.Reply.value, Resp.Reply.values, Resp.Reply.values, Resp.Reply.values,
    value_textReply hshort, value_integerReply hrange]
  rfl

theorem length_reserveStatus (status : ReserveStatus) :
    (Utf8.encode status.text.toList).length ≤ MAX_BULK := by
  cases status <;> decide +kernel

theorem length_releaseStatus (status : ReleaseStatus) :
    (Utf8.encode status.text.toList).length ≤ MAX_BULK := by
  cases status <;> decide +kernel

/-- What the caller of `reserve` makes of the reply of the script. -/
def ReserveStatus.result (id : ReservationId) (value : Int) : ReserveStatus → ReservationResult
  | OK => .accepted id value
  | INSUFFICIENT_STOCK => .rejected .INSUFFICIENT_STOCK (some value)
  | UNKNOWN_SKU => .rejected .UNKNOWN_SKU (some value)

theorem reading_reserve {w : WarehouseId} {s : Sku} {qty ttl value : Int} {id : ReservationId}
    (status : ReserveStatus) (hrange : value.natAbs < 2 ^ 53) :
    (InventoryCall.reserve w s qty ttl id).reading
        (settlement (redis.toRedisScripts.scriptReply (.ok (status.text, value))).value) =
      some (.reserved (.ok (status.result id value))) := by
  rw [settlement_scriptReply (length_reserveStatus status) hrange, InventoryCall.reading]
  cases status with
  | OK => exact (if_neg (by decide +kernel)).trans (if_neg (by decide +kernel))
  | INSUFFICIENT_STOCK => exact if_pos rfl
  | UNKNOWN_SKU => exact (if_neg (by decide +kernel)).trans (if_pos rfl)

theorem resolved_text (status : ReleaseStatus) :
    InventoryCall.resolved status.text.toList = some (.resolved (.ok status)) := by
  cases status with
  | RELEASED => exact if_pos rfl
  | COMMITTED => exact (if_neg (by decide +kernel)).trans (if_pos rfl)
  | ALREADY_RESOLVED =>
    exact (if_neg (by decide +kernel)).trans ((if_neg (by decide +kernel)).trans (if_pos rfl))

theorem agrees_reserve (hexact : redis.lua.Exact ofInt) (hvalues : r.Ranged) {w : WarehouseId} {s : Sku}
    {qty ttl : Int} {id : ReservationId} (hpos : 0 < qty)
    (hranged : (InventoryCall.reserve w s qty ttl id).Ranged r.now) :
    Agrees redis r (.reserve w s qty ttl id)
      ["EVAL", redis.RESERVE_SCRIPT, "2", stockKey w s, reservationKey id, toString qty, id, toString ttl] := by
  obtain ⟨hdouble, hlive, hnow⟩ := hranged
  have hscript := @reserve_ofRedis redis.lua ofInt r (stockKey w s) (reservationKey id) id qty ttl hexact
    (hvalues _) hpos hdouble hlive fun _ _ _ => hnow
  have heval : ∃ r' status value,
      (exactReserve (stockKey w s) (reservationKey id) (some qty) id (some ttl)).eval r =
      (r', .ok (status, value)) ∧ value.natAbs < 2 ^ 53 := by
    rw [exactReserve_eval r _ _ _ hpos hlive]
    cases hv : r.lookup (stockKey w s) with
    | none => exact ⟨r, .UNKNOWN_SKU, 0, rfl, by decide⟩
    | some available =>
      have hrange := hvalues _ available hv
      dsimp only
      split
      · exact ⟨r, .INSUFFICIENT_STOCK, available, rfl, hrange⟩
      · exact ⟨_, .OK, available - qty, rfl, by omega⟩
  obtain ⟨r', status, value, heval, hrange⟩ := heval
  have hcall : Deployment.server.call r (.reserve w s qty ttl id) =
      (r', .reserved (.ok (status.result id value))) := by
    simp only [Deployment.call, Deployment.server, RedisLike.reserve, RedisLike.server,
      if_neg (Int.not_le.mpr hpos), heval]
    cases status with
    | OK => rfl
    | INSUFFICIENT_STOCK => rfl
    | UNKNOWN_SKU => rfl
  refine ⟨redis.toRedisScripts.scriptReply (.ok (status.text, value)), ?_, ?_⟩
  · rw [redis.evalReserve_two, RedisScripts.evalReserve, hscript, heval, hcall]
    rfl
  · rw [hcall]
    exact reading_reserve status hrange

/-- Both modes of the release script. -/
theorem execute_release (hexact : redis.lua.Exact ofInt) (hvalues : r.Ranged) {key key' mode : String}
    {r' : Redis} {status : ReleaseStatus} {value : Int}
    (heval : (exactRelease key key' mode).eval r = (r', .ok (status, value))) :
    redis.execute ["EVAL", redis.RELEASE_SCRIPT, "2", key, key', mode] (.ofRedis r) =
      (.ofRedis r', redis.toRedisScripts.scriptReply (.ok (status.text, value))) := by
  have hscript := @release_ofRedis redis.lua ofInt r hexact key key' mode (hvalues key) (hvalues key')
  rw [redis.evalRelease_two, RedisScripts.evalRelease, hscript, heval]
  rfl

theorem agrees_release (hexact : redis.lua.Exact ofInt) (hvalues : r.Ranged) {w : WarehouseId} {s : Sku}
    {id : ReservationId} :
    Agrees redis r (.release w s id)
      ["EVAL", redis.RELEASE_SCRIPT, "2", stockKey w s, reservationKey id, "RELEASE"] := by
  have heval : ∃ r' status value, (exactRelease (stockKey w s) (reservationKey id) "RELEASE").eval r =
      (r', .ok (status, value)) ∧ value.natAbs < 2 ^ 53 := by
    rw [exactRelease_eval_release]
    cases hv : r.lookup (reservationKey id) with
    | none => exact ⟨r, .ALREADY_RESOLVED, 0, rfl, by decide⟩
    | some value => exact ⟨_, .RELEASED, value, rfl, hvalues _ value hv⟩
  obtain ⟨r', status, value, heval, hrange⟩ := heval
  have hcall : Deployment.server.call r (.release w s id) = (r', .resolved (.ok status)) := by
    simp only [Deployment.call, Deployment.server, RedisLike.release, RedisLike.resolve, RedisLike.server, heval]
    rfl
  refine ⟨redis.toRedisScripts.scriptReply (.ok (status.text, value)), ?_, ?_⟩
  · rw [execute_release hexact hvalues heval, hcall]
  · rw [hcall, settlement_scriptReply (length_releaseStatus status) hrange]
    exact resolved_text status

theorem agrees_commit (hexact : redis.lua.Exact ofInt) (hvalues : r.Ranged) {w : WarehouseId} {s : Sku}
    {id : ReservationId} :
    Agrees redis r (.commit w s id)
      ["EVAL", redis.RELEASE_SCRIPT, "2", stockKey w s, reservationKey id, "COMMIT"] := by
  have heval : ∃ r' status value, (exactRelease (stockKey w s) (reservationKey id) "COMMIT").eval r =
      (r', .ok (status, value)) ∧ value.natAbs < 2 ^ 53 := by
    rw [exactRelease_eval_commit]
    cases hv : r.lookup (reservationKey id) with
    | none => exact ⟨r, .ALREADY_RESOLVED, 0, rfl, by decide⟩
    | some value => exact ⟨_, .COMMITTED, value, rfl, hvalues _ value hv⟩
  obtain ⟨r', status, value, heval, hrange⟩ := heval
  have hcall : Deployment.server.call r (.commit w s id) = (r', .resolved (.ok status)) := by
    simp only [Deployment.call, Deployment.server, RedisLike.commit, RedisLike.resolve, RedisLike.server, heval]
    rfl
  refine ⟨redis.toRedisScripts.scriptReply (.ok (status.text, value)), ?_, ?_⟩
  · rw [execute_release hexact hvalues heval, hcall]
  · rw [hcall, settlement_scriptReply (length_releaseStatus status) hrange]
    exact resolved_text status

/-- A call that sends a command agrees with the model of the services. -/
theorem agrees_of_command (hexact : redis.lua.Exact ofInt) (hvalues : r.Ranged) (hranged : c.Ranged r.now)
    (hcommand : c.command redis = some args) : Agrees redis r c args := by
  cases c with
  | setStock w s qty =>
    obtain rfl := Option.some.inj hcommand
    exact agrees_setStock
  | getAvailable w s =>
    obtain rfl := Option.some.inj hcommand
    exact agrees_getAvailable hvalues
  | reserve w s qty ttl id =>
    rw [InventoryCall.command] at hcommand
    split at hcommand
    · cases hcommand
    · rename_i hpos
      obtain rfl := Option.some.inj hcommand
      exact agrees_reserve hexact hvalues (Int.not_le.mp hpos) hranged
  | release w s id =>
    obtain rfl := Option.some.inj hcommand
    exact agrees_release hexact hvalues
  | commit w s id =>
    obtain rfl := Option.some.inj hcommand
    exact agrees_commit hexact hvalues
  | elapse ms => cases hcommand

/-! ## An order of the calls -/

section Order

variable {ι : Type} [DecidableEq ι] {i : ι} {order : List (InventoryEvent ι)} {log : List (ServerEvent ι)}

theorem commandsOf_cons (j : ι) (args : List (List UInt8)) :
    ServerEvent.commandsOf i (.command j args :: log) =
      if j = i then args :: ServerEvent.commandsOf i log else ServerEvent.commandsOf i log := by
  by_cases hj : j = i
  · simp [ServerEvent.commandsOf, hj]
  · simp [ServerEvent.commandsOf, hj]

theorem callsOf_cons (j : ι) (c : InventoryCall) :
    InventoryEvent.callsOf i (.call j c :: order) =
      if j = i then c :: InventoryEvent.callsOf i order else InventoryEvent.callsOf i order := by
  by_cases hj : j = i
  · simp [InventoryEvent.callsOf, hj]
  · simp [InventoryEvent.callsOf, hj]

/-- If each connection has carried the commands of its calls, what the server has executed is an order of
these calls; those whose commands it has not executed are left. -/
theorem exists_order {calls : ι → List InventoryCall} {later : ι → List (List (List UInt8))}
    (hsent : ∀ i, (calls i).map (·.command redis) =
      (ServerEvent.commandsOf i log ++ later i).map fun args => some (texts args)) :
    ∃ order : List (InventoryEvent ι), List.Forall₂ (Executes redis) order log ∧
      ∀ i, ∃ rest, InventoryEvent.callsOf i order ++ rest = calls i ∧ rest.length = (later i).length := by
  induction log generalizing calls with
  | nil =>
    refine ⟨[], .nil, fun i => ⟨calls i, rfl, ?_⟩⟩
    have hlength := congrArg List.length (hsent i)
    rwa [List.length_map, List.length_map] at hlength
  | cons event log ih =>
    cases event with
    | command j args =>
      have hj := hsent j
      rw [commandsOf_cons, if_pos rfl, List.cons_append, List.map_cons] at hj
      obtain ⟨c, rest, hcalls, hcommand, hrest⟩ := List.map_eq_cons_iff.mp hj
      obtain ⟨order, horder, hsplit⟩ := @ih (Function.update calls j rest) fun i => by
        by_cases hi : i = j
        · subst hi
          rw [Function.update_self]
          exact hrest
        · have hother := hsent i
          rw [commandsOf_cons, if_neg (Ne.symm hi)] at hother
          rw [Function.update_of_ne hi]
          exact hother
      refine ⟨.call j c :: order, .cons (.call hcommand) horder, fun i => ?_⟩
      obtain ⟨left, hleft, hlength⟩ := hsplit i
      refine ⟨left, ?_, hlength⟩
      by_cases hi : i = j
      · subst hi
        rw [Function.update_self] at hleft
        rw [callsOf_cons, if_pos rfl, List.cons_append, hleft, hcalls]
      · rw [Function.update_of_ne hi] at hleft
        rw [callsOf_cons, if_neg (Ne.symm hi), hleft]
    | elapse ms =>
      obtain ⟨order, horder, hsplit⟩ := ih hsent
      exact ⟨.elapse ms :: order, .cons (.elapse ms) horder, hsplit⟩

/-- The replies of the server are read as the answers of the services. -/
def ReadAs (answer : InventoryCall × InventoryReply) (reply : Resp.Reply) : Prop :=
  answer.1.reading (settlement reply.value) = some answer.2

/-- The server goes through the states of the model, and replies to each call what it is answered there. -/
theorem executes_order (hexact : redis.lua.Exact ofInt) (horder : List.Forall₂ (Executes redis) order log)
    (hranged : InventoryEvent.Ranged r order) :
    redis.server.after (.ofRedis r) log = .ofRedis (InventoryEvent.after r order) ∧
      ∀ i, List.Forall₂ ReadAs (InventoryEvent.answers i r order) (redis.server.replies i (.ofRedis r) log) := by
  induction horder generalizing r with
  | nil => exact ⟨rfl, fun i => .nil⟩
  | @cons event entry order log hevent horder ih =>
    obtain ⟨hvalues, hcall, hranged⟩ := hranged
    cases hevent with
    | @call j c args hcommand =>
      obtain ⟨reply, hexecute, hread⟩ := agrees_of_command hexact hvalues hcall hcommand
      have hserver : redis.server.execute args (.ofRedis r) =
          (.ofRedis (Deployment.server.call r c).1, reply) := hexecute
      have happly : redis.server.apply (.ofRedis r) (.command j args) =
          .ofRedis (InventoryEvent.apply r (.call j c)) := congrArg Prod.fst hserver
      obtain ⟨hstate, hanswers⟩ := ih hranged
      refine ⟨?_, fun i => ?_⟩
      · rw [RespServer.after, List.foldl_cons, happly]
        exact hstate
      · rw [InventoryEvent.answers, RespServer.replies, happly, hserver]
        dsimp only
        by_cases hj : j = i
        · rw [if_pos hj, if_pos hj]
          exact .cons hread (hanswers i)
        · rw [if_neg hj, if_neg hj]
          exact hanswers i
    | elapse ms =>
      have happly : redis.server.apply (.ofRedis r) (.elapse ms : ServerEvent ι) =
          .ofRedis (InventoryEvent.apply r (.elapse ms : InventoryEvent ι)) := Keyspace.elapse_ofRedis ms
      obtain ⟨hstate, hanswers⟩ := ih hranged
      refine ⟨?_, fun i => ?_⟩
      · rw [RespServer.after, List.foldl_cons, happly]
        exact hstate
      · rw [InventoryEvent.answers, RespServer.replies, happly]
        exact hanswers i

theorem map_fst_answers : (InventoryEvent.answers i r order).map Prod.fst = InventoryEvent.callsOf i order := by
  induction order generalizing r with
  | nil => rfl
  | cons event order ih =>
    cases event with
    | call j c =>
      rw [callsOf_cons, InventoryEvent.answers]
      by_cases hj : j = i
      · rw [if_pos hj, if_pos hj, List.map_cons, ih]
      · rw [if_neg hj, if_neg hj, ih]
    | elapse ms => exact ih

/-- A call that is settled is answered. -/
theorem answered {answers : List (InventoryCall × InventoryReply)} {replies : List Resp.Reply}
    (hread : List.Forall₂ ReadAs answers replies) {n : Nat} {s : Settlement}
    (hmem : (n, s) ∈ settlements replies) :
    ∃ c reply, answers[n]? = some (c, reply) ∧ c.reading s = some reply := by
  obtain ⟨k, hk⟩ := List.mem_iff_getElem?.mp hmem
  obtain ⟨hrange, hreply⟩ := List.getElem?_zip_eq_some.mp hk
  obtain ⟨hbound, rfl⟩ := List.getElem?_eq_some_iff.mp hrange
  rw [List.getElem?_map] at hreply
  obtain ⟨reply, hget, rfl⟩ := Option.map_eq_some_iff.mp hreply
  rw [List.getElem_range]
  have hlt : k < answers.length := by
    rw [hread.length_eq]
    exact (List.getElem?_eq_some_iff.mp hget).1
  refine ⟨answers[k].1, answers[k].2, List.getElem?_eq_getElem hlt, ?_⟩
  have hpair := List.forall₂_iff_get.mp hread |>.2 k hlt (List.getElem?_eq_some_iff.mp hget).1
  rw [List.get_eq_getElem, List.get_eq_getElem, (List.getElem?_eq_some_iff.mp hget).2] at hpair
  exact hpair

theorem texts_encode (args : List (List Char)) :
    texts (args.map Utf8.encode) = args.map String.ofList := by
  rw [texts, List.map_map]
  refine List.map_congr_left fun arg _ => ?_
  exact congrArg String.ofList (Utf8.decode_encode arg)

/-- What the server has executed is an order of the first calls of each service. -/
theorem order_of_inv {s₀ : Keyspace} {w : Wire ι Keyspace} {sent : ι → List (List (List Char))}
    (hinv : Wire.Inv redis.server s₀ w sent) {calls : ι → List InventoryCall}
    (hsent : ∀ i, (calls i).map (·.command redis) = (sent i).map fun args => some (args.map String.ofList)) :
    ∃ order : List (InventoryEvent ι), List.Forall₂ (Executes redis) order w.log ∧
      ∀ i, InventoryEvent.callsOf i order <+: calls i ∧
        (w.Quiet redis.server i → InventoryEvent.callsOf i order = calls i) := by
  let later i := ((sent i).drop (Wire.written redis.server s₀ w i).length).map (List.map Utf8.encode)
  have hsplit : ∀ i, ServerEvent.commandsOf i w.log ++ later i = (sent i).map (List.map Utf8.encode) := by
    intro i
    rw [(hinv.linked i).executed, ← List.map_append, List.take_append_drop]
  have hcommands : ∀ i, (calls i).map (·.command redis) =
      (ServerEvent.commandsOf i w.log ++ later i).map fun args => some (texts args) := by
    intro i
    rw [hsplit, List.map_map, hsent]
    refine List.map_congr_left fun args _ => ?_
    exact congrArg some (texts_encode args).symm
  obtain ⟨order, horder, hrest⟩ := exists_order hcommands
  refine ⟨order, horder, fun i => ?_⟩
  obtain ⟨rest, hcalls, hlength⟩ := hrest i
  refine ⟨⟨rest, hcalls⟩, fun hquiet => ?_⟩
  have hall : ServerEvent.commandsOf i w.log ++ later i = ServerEvent.commandsOf i w.log ++ [] := by
    rw [hsplit, List.append_nil, ((hinv.linked i).quiet hquiet).1]
  rw [List.append_cancel_left hall, List.length_nil] at hlength
  rw [← hcalls, List.length_eq_zero_iff.mp hlength, List.append_nil]

/-- Any number of services call the inventory, each over a connection of its own, in whatever pieces the bytes
come. There is one order of the calls, with the calls of each service in the order in which it made them, such
that the server is as the calls in this order leave it, and every call that is settled is answered as it is
there. Once nothing is under way for a service, all its calls are in the order and settled. -/
theorem calls_over_wire (hexact : redis.lua.Exact ofInt) {calls : ι → List InventoryCall}
    {actions : List (WireAction ι)} {w : Wire ι Keyspace}
    (hsent : ∀ i, (calls i).map (·.command redis) =
      (WireAction.sentBy i actions).map fun args => some (args.map String.ofList))
    (hrun : (Wire.start (.ofRedis r)).run redis.server actions = some w) :
    ∃ order : List (InventoryEvent ι), List.Forall₂ (Executes redis) order w.log ∧
      (∀ i, InventoryEvent.callsOf i order <+: calls i ∧
        (w.Quiet redis.server i → InventoryEvent.callsOf i order = calls i ∧
          (w.client i).settled.length = (calls i).length)) ∧
      (InventoryEvent.Ranged r order →
        w.store = .ofRedis (InventoryEvent.after r order) ∧
        ∀ i n settlement, (n, settlement) ∈ (w.client i).settled →
          ∃ c reply, (InventoryEvent.answers i r order)[n]? = some (c, reply) ∧
            c.reading settlement = some reply) := by
  obtain ⟨hinv, -⟩ := Wire.inv_start.run hrun
  simp only [List.nil_append] at hinv
  obtain ⟨order, horder, hcalls⟩ := order_of_inv hinv hsent
  refine ⟨order, horder, fun i => ⟨(hcalls i).1, fun hquiet => ⟨(hcalls i).2 hquiet, ?_⟩⟩, fun hranged => ?_⟩
  · obtain ⟨hcommands, hsettled, -⟩ := (hinv.linked i).quiet hquiet
    have hsettlements : (settlements (Wire.written redis.server (.ofRedis r) w i)).length =
        (Wire.written redis.server (.ofRedis r) w i).length := by
      simp [settlements]
    have hexecuted := congrArg List.length (hinv.linked i).executed
    rw [hcommands, List.length_map, List.length_map, List.length_take,
      Nat.min_eq_left (hinv.linked i).bound] at hexecuted
    have hlength := congrArg List.length (hsent i)
    rw [List.length_map, List.length_map] at hlength
    rw [hsettled, hsettlements, ← hexecuted, hlength]
  · obtain ⟨hstate, hanswers⟩ := executes_order hexact horder hranged
    refine ⟨hinv.store.trans hstate, fun i n settlement hmem => ?_⟩
    exact answered (hanswers i) ((hinv.linked i).settled.subset hmem)

end Order

/-- A server that runs the two scripts on doubles. -/
def doublesServer : RedisServer :=
  RedisScripts.simple
    { lua := .doubles
      RESERVE_SCRIPT := "reserve.lua"
      RELEASE_SCRIPT := "release.lua"
      distinct := by decide
      errorText _ := Utf8.encode "ERR".toList
      errorText_line _ := by decide +kernel } .simple

/-- Two services want the same five units. -/
def shoppers : Bool → List InventoryCall
  | false => [.setStock "warehouse" "sku" 5, .reserve "warehouse" "sku" 3 900 "a"]
  | true => [.reserve "warehouse" "sku" 4 900 "b", .getAvailable "warehouse" "sku"]

/-- The commands of a list of calls, as they are sent. -/
def sends (calls : List InventoryCall) : List (List (List Char)) :=
  (calls.filterMap fun c => c.command doublesServer).map fun args => args.map String.toList

/-- Both reserve while the stock is being set, and the bytes come in pieces. -/
def shopperActions : List (WireAction Bool) :=
  (sends (shoppers false)).map (.send false) ++ (sends (shoppers true)).map (.send true) ++
    [.carry false 50, .carry true 400, .execute false, .execute true, .elapse 5, .deliver false 3,
      .carry false 400,
      .execute false, .execute true, .deliver true 9, .deliver true 400, .deliver false 400]

theorem shoppers_sent (i : Bool) : (shoppers i).map (·.command doublesServer) =
    (WireAction.sentBy i shopperActions).map fun args => some (args.map String.ofList) := by
  cases i with
  | false => decide +kernel
  | true => decide +kernel

theorem shoppers_run : ∃ w, (Wire.start (.ofRedis Redis.empty)).run doublesServer.server shopperActions = some w ∧
    ∀ i, w.Quiet doublesServer.server i := by
  have hseen : ((Wire.start (.ofRedis Redis.empty)).run doublesServer.server shopperActions).map (fun w =>
      ([w.toServer false, w.toServer true, w.toClient false, w.toClient true],
        (doublesServer.read (w.inbox false)).isNone && (doublesServer.read (w.inbox true)).isNone)) =
        some ([[], [], [], []], true) := by
    decide +kernel
  obtain ⟨w, hrun, hseen⟩ := Option.map_eq_some_iff.mp hseen
  simp only [Prod.mk.injEq, List.cons.injEq, and_true, Bool.and_eq_true, Option.isNone_iff_eq_none] at hseen
  obtain ⟨⟨hserver, hserver', hclient, hclient'⟩, hinbox, hinbox'⟩ := hseen
  refine ⟨w, hrun, fun i => ?_⟩
  cases i with
  | false => exact ⟨hserver, hinbox, hclient⟩
  | true => exact ⟨hserver', hinbox', hclient'⟩

end SupplyChain
