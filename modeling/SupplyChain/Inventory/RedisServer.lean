import SupplyChain.Inventory.InMemoryRedis
import SupplyChain.Inventory.LuaScripts
import SupplyChain.Resp.Wire

/-!
# Redis behind a connection

The commands of `RawRespClient` as the server executes them on its keyspace, what `InventoryService` sends for
its operations, and what it makes of the replies. Texts are UTF-8.
-/

namespace SupplyChain

open Resp

/-- The word that `reserve.lua` replies with. -/
def ReserveStatus.text : ReserveStatus → String
  | OK => "OK"
  | INSUFFICIENT_STOCK => "INSUFFICIENT_STOCK"
  | UNKNOWN_SKU => "UNKNOWN_SKU"

/-- The word that `release.lua` replies with. -/
def ReleaseStatus.text : ReleaseStatus → String
  | RELEASED => "RELEASED"
  | COMMITTED => "COMMITTED"
  | ALREADY_RESOLVED => "ALREADY_RESOLVED"

/-! ## Replies -/

/-- The longest string, `proto-max-bulk-len`. -/
def MAX_BULK : Nat := 512 * 1024 * 1024

/-- A bulk string, unless it is too long for one. -/
def textReply (s : String) : Resp.Reply :=
  if (Utf8.encode s.toList).length ≤ MAX_BULK then .bulk 0 (Utf8.encode s.toList) else .nullBulk

/-- A number is an integer of 64 bits. -/
def integerReply (n : Int) : Resp.Reply :=
  .integer (if n.bmod (2 ^ 64) < 0 then .minus else .unsigned) 0 (n.bmod (2 ^ 64)).natAbs

/-- A status line, such as `OK`. -/
def lineReply (s : String) : Resp.Reply := .simple (Utf8.encode s.toList)

/-- The texts of the two scripts, what Lua makes of numbers, and the lines of the error replies. -/
structure RedisScripts where
  /-- How the interpreter computes. -/
  lua : LuaNumbers
  /-- The text of `reserve.lua`, by which the server knows it. -/
  RESERVE_SCRIPT : String
  /-- The text of `release.lua`. -/
  RELEASE_SCRIPT : String
  /-- A server can tell the two apart. -/
  distinct : RESERVE_SCRIPT ≠ RELEASE_SCRIPT
  /-- What it writes for an error. -/
  errorText : RedisError → List UInt8
  /-- An error is one line. -/
  errorText_line : ∀ e, CR ∉ errorText e ∧ LF ∉ errorText e

namespace RedisScripts

variable (scripts : RedisScripts)

/-- The reply of a script that returns `{ status, value }`. -/
def scriptReply : Except RedisError (String × Int) → Resp.Reply
  | .ok (status, value) => .array 0 [textReply status, integerReply value]
  | .error e => .error (scripts.errorText e)

/-- The reply of `GET`. -/
def valueReply : Except RedisError (Option String) → Resp.Reply
  | .ok (some value) => textReply value
  | .ok none => .nullBulk
  | .error e => .error (scripts.errorText e)

/-- `EVAL` of `reserve.lua` with these keys and arguments. -/
def evalReserve (KEYS ARGV : List String) (k : Keyspace) : Keyspace × Resp.Reply :=
  let (k, result) := (LuaScript.reserve scripts.lua KEYS ARGV).eval k
  (k, scripts.scriptReply (result.map fun (status, value) => (status.text, value)))

/-- `EVAL` of `release.lua` with these keys and arguments. -/
def evalRelease (KEYS ARGV : List String) (k : Keyspace) : Keyspace × Resp.Reply :=
  let (k, result) := (LuaScript.release scripts.lua KEYS ARGV).eval k
  (k, scripts.scriptReply (result.map fun (status, value) => (status.text, value)))

end RedisScripts

/-- A server. Of the commands, only those that the service sends are described. -/
structure RedisServer extends RedisScripts, CommandReader where
  /-- What a command does, of any words. -/
  execute : List String → Keyspace → Keyspace × Resp.Reply
  /-- The replies keep the limits of the protocol. -/
  wellFormed : ∀ args k, (execute args k).2.WellFormed
  /-- `GET key` -/
  get (key : String) (k : Keyspace) : execute ["GET", key] k = (k, toRedisScripts.valueReply (k.get key))
  /-- `SET key value` -/
  set (key value : String) (k : Keyspace) :
    execute ["SET", key, value] k = (k.put key (some ⟨.text value, none⟩), lineReply "OK")
  /-- `reserve.lua` reads its first two keys. -/
  evalReserve_two (key key' : String) (ARGV : List String) (k : Keyspace) :
    execute ("EVAL" :: RESERVE_SCRIPT :: "2" :: key :: key' :: ARGV) k =
      toRedisScripts.evalReserve [key, key'] ARGV k
  /-- `release.lua` too. -/
  evalRelease_two (key key' : String) (ARGV : List String) (k : Keyspace) :
    execute ("EVAL" :: RELEASE_SCRIPT :: "2" :: key :: key' :: ARGV) k =
      toRedisScripts.evalRelease [key, key'] ARGV k

/-- The server as one that reads bytes and writes bytes. -/
def RedisServer.server (redis : RedisServer) : RespServer Keyspace where
  toCommandReader := redis.toCommandReader
  execute args k := redis.execute (args.map fun arg => String.ofList (Utf8.decode arg)) k
  elapse ms k := k.elapse ms
  wellFormed _ k := redis.wellFormed _ k

namespace RedisScripts

variable (scripts : RedisScripts)

/-- A server that knows the commands of the client. -/
def executeText : List String → Keyspace → Keyspace × Resp.Reply
  | ["GET", key], k => (k, scripts.valueReply (k.get key))
  | ["SET", key, value], k => (k.put key (some ⟨.text value, none⟩), lineReply "OK")
  | "DEL" :: keys, k =>
    (keys.foldl Keyspace.del k, integerReply (keys.dedup.countP fun key => (k.entries key).isSome))
  | "EVAL" :: script :: numKeys :: keysAndArgs, k =>
    match string2ll numKeys with
    | some (.ofNat n) =>
      if script = scripts.RESERVE_SCRIPT then
        scripts.evalReserve (keysAndArgs.take n) (keysAndArgs.drop n) k
      else if script = scripts.RELEASE_SCRIPT then
        scripts.evalRelease (keysAndArgs.take n) (keysAndArgs.drop n) k
      else (k, .error (scripts.errorText .invalidArgument))
    | _ => (k, .error (scripts.errorText .notAnInteger))
  | ["QUIT"], k => (k, lineReply "OK")
  | _, k => (k, .error (scripts.errorText .invalidArgument))

theorem error_wellFormed (e : RedisError) : (Resp.Reply.error (scripts.errorText e)).WellFormed :=
  .error (scripts.errorText_line e).1 (scripts.errorText_line e).2

theorem textReply_wellFormed (s : String) : (textReply s).WellFormed := by
  unfold textReply
  split
  · rename_i hlength
    exact .bulk (Nat.lt_of_le_of_lt hlength (by decide))
  · exact .nullBulk

theorem integerReply_wellFormed (n : Int) : (integerReply n).WellFormed := by
  have hlow : -2 ^ 63 ≤ n.bmod (2 ^ 64) := Int.le_bmod (by decide)
  have hhigh : n.bmod (2 ^ 64) < 2 ^ 63 := Int.bmod_lt (by decide)
  unfold integerReply
  split
  · refine .integer ?_ ?_ <;> simp only [Sign.apply] <;> omega
  · refine .integer ?_ ?_ <;> simp only [Sign.apply] <;> omega

theorem scriptReply_wellFormed (result : Except RedisError (String × Int)) :
    (scripts.scriptReply result).WellFormed := by
  cases result with
  | ok result =>
    refine .array (show 2 < 2 ^ 53 by decide) fun item hitem => ?_
    rcases List.mem_cons.mp hitem with rfl | hitem
    · exact textReply_wellFormed _
    · obtain rfl := List.mem_singleton.mp hitem
      exact integerReply_wellFormed _
  | error e => exact scripts.error_wellFormed e

theorem valueReply_wellFormed (result : Except RedisError (Option String)) :
    (scripts.valueReply result).WellFormed := by
  rcases result with e | _ | value
  · exact scripts.error_wellFormed e
  · exact .nullBulk
  · exact textReply_wellFormed value

theorem executeText_wellFormed (args : List String) (k : Keyspace) :
    (scripts.executeText args k).2.WellFormed := by
  have hok : (lineReply "OK").WellFormed := .simple (by decide) (by decide)
  unfold executeText
  split
  · exact scripts.valueReply_wellFormed _
  · exact hok
  · exact integerReply_wellFormed _
  · split
    · split
      · exact scripts.scriptReply_wellFormed _
      · split
        · exact scripts.scriptReply_wellFormed _
        · exact scripts.error_wellFormed _
    · exact scripts.error_wellFormed _
  · exact hok
  · exact scripts.error_wellFormed _

theorem string2ll_two : string2ll "2" = some 2 := by
  decide +kernel

/-- A server that executes just the commands that the service sends. -/
def simple (reader : CommandReader) : RedisServer where
  toRedisScripts := scripts
  toCommandReader := reader
  execute := scripts.executeText
  wellFormed := scripts.executeText_wellFormed
  get _ _ := rfl
  set _ _ _ := rfl
  evalReserve_two key key' ARGV k := by
    rw [executeText, string2ll_two]
    exact if_pos rfl
  evalRelease_two key key' ARGV k := by
    rw [executeText, string2ll_two]
    exact (if_neg scripts.distinct.symm).trans (if_pos rfl)

end RedisScripts

/-! ## `InventoryService` on a connection -/

namespace InventoryCall

open InventoryService (stockKey reservationKey)

/-- The command of a call, if it sends one: nothing is sent to reserve no units. -/
def command (redis : RedisServer) : InventoryCall → Option (List String)
  | setStock warehouseId sku qty => some ["SET", stockKey warehouseId sku, toString qty]
  | getAvailable warehouseId sku => some ["GET", stockKey warehouseId sku]
  | reserve warehouseId sku qty ttlSeconds reservationId =>
    if qty ≤ 0 then none
    else some ["EVAL", redis.RESERVE_SCRIPT, "2", stockKey warehouseId sku, reservationKey reservationId,
      toString qty, reservationId, toString ttlSeconds]
  | release warehouseId sku reservationId =>
    some ["EVAL", redis.RELEASE_SCRIPT, "2", stockKey warehouseId sku, reservationKey reservationId, "RELEASE"]
  | commit warehouseId sku reservationId =>
    some ["EVAL", redis.RELEASE_SCRIPT, "2", stockKey warehouseId sku, reservationKey reservationId, "COMMIT"]
  | elapse _ => none

/-- The reply of `release` and `commit` is the first item, whatever it is. -/
def resolved (status : List Char) : Option InventoryReply :=
  if status = "RELEASED".toList then some (.resolved (.ok .RELEASED))
  else if status = "COMMITTED".toList then some (.resolved (.ok .COMMITTED))
  else if status = "ALREADY_RESOLVED".toList then some (.resolved (.ok .ALREADY_RESOLVED))
  else none

/-- What the caller gets when the promise of its command is settled, where it is settled as the scripts and the
commands reply. -/
def reading : InventoryCall → Settlement → Option InventoryReply
  | setStock .., .resolved _ => some .done
  | getAvailable .., .resolved .null => some (.available 0)
  | getAvailable .., .resolved (.text v) => (Decimal.parseNumber v).map .available
  | reserve _ _ _ _ reservationId, .resolved (.array [.text status, .number (some value)]) =>
    if status = "INSUFFICIENT_STOCK".toList then
      some (.reserved (.ok (.rejected .INSUFFICIENT_STOCK (some value))))
    else if status = "UNKNOWN_SKU".toList then some (.reserved (.ok (.rejected .UNKNOWN_SKU (some value))))
    else some (.reserved (.ok (.accepted reservationId value)))
  | release .., .resolved (.array (.text status :: _)) => resolved status
  | commit .., .resolved (.array (.text status :: _)) => resolved status
  | _, _ => none

end InventoryCall

/-! ## Calls one at a time -/

/-- The calls of any number of services, in one order, with time passing in between. -/
inductive InventoryEvent (ι : Type) where
  /-- A call of the `i`-th service takes effect. -/
  | call (i : ι) (c : InventoryCall)
  /-- Some milliseconds pass. -/
  | elapse (ms : Nat)

namespace InventoryEvent

variable {ι : Type}

/-- What the event does to the exact server. -/
def apply (r : Redis) : InventoryEvent ι → Redis
  | call _ c => (Deployment.server.call r c).1
  | elapse ms => r.elapse ms

/-- What a sequence of events leaves. -/
def after (r : Redis) (order : List (InventoryEvent ι)) : Redis := order.foldl apply r

/-- The calls of a service, each with what it is answered. -/
def answers [DecidableEq ι] (i : ι) : Redis → List (InventoryEvent ι) → List (InventoryCall × InventoryReply)
  | _, [] => []
  | r, event :: order =>
    match event with
    | call j c =>
      if j = i then (c, (Deployment.server.call r c).2) :: answers i (apply r event) order
      else answers i (apply r event) order
    | elapse _ => answers i (apply r event) order

/-- The calls of a service. -/
def callsOf [DecidableEq ι] (i : ι) (order : List (InventoryEvent ι)) : List InventoryCall :=
  order.filterMap fun
    | call j c => if j = i then some c else none
    | elapse _ => none

end InventoryEvent

/-- A counter is set to an exact number, and a time to live is positive and sets a deadline of at most 63 bits. -/
def InventoryCall.Ranged (now : Nat) : InventoryCall → Prop
  | setStock _ _ qty => qty.natAbs < 2 ^ 53
  | reserve _ _ _ ttlSeconds _ =>
    Decimal.IsDouble ttlSeconds ∧ 0 < ttlSeconds ∧ now + 1000 * ttlSeconds < 2 ^ 63
  | _ => True

namespace InventoryEvent

variable {ι : Type}

/-- The numbers of the event are in range at that time. -/
def RangedAt (now : Nat) : InventoryEvent ι → Prop
  | call _ c => c.Ranged now
  | elapse _ => True

/-- All along an order of calls, the numbers in store are exact and no deadline is refused. -/
def Ranged : Redis → List (InventoryEvent ι) → Prop
  | r, [] => r.Ranged
  | r, event :: order => r.Ranged ∧ event.RangedAt r.now ∧ Ranged (event.apply r) order

end InventoryEvent

/-- The text that an argument is. -/
def texts (args : List (List UInt8)) : List String := args.map fun arg => String.ofList (Utf8.decode arg)

/-- The command is the one that the call sends, on the same connection. -/
inductive Executes {ι : Type} (redis : RedisServer) : InventoryEvent ι → ServerEvent ι → Prop where
  /-- A command of the client, executed as the call it encodes. -/
  | call {i : ι} {c : InventoryCall} {args : List (List UInt8)}
      (hcommand : c.command redis = some (texts args)) : Executes redis (.call i c) (.command i args)
  /-- Time passes. -/
  | elapse (ms : Nat) : Executes redis (.elapse ms) (.elapse ms)

end SupplyChain
