import Mathlib.Algebra.Ring.Int.Defs
import Mathlib.Data.Rat.Defs

/-!
# The keys of the inventory, with numbers as numbers

The abstract server: a keyspace of integers with deadlines, and two scripts over it. A script runs as one
atomic step, and the writes it made before an error stay. Numbers have no limits here. The scripts as they
are, with doubles, 64-bit counters and 64-bit deadlines, are in `LuaScripts.lean`, and do the same as these
as long as no number needs more than 53 bits and no deadline more than 63 (`reserve_ofRedis`,
`release_ofRedis`).
-/

namespace SupplyChain

/-- The value of a key, and the time in milliseconds from which the key is gone. -/
structure Entry where
  /-- A counter's level, or a reservation's quantity. -/
  value : Int
  /-- When the key is gone, if it has a deadline. -/
  expireAt : Option Nat
  deriving DecidableEq

/-- The keys and the clock of the abstract server. -/
structure Redis where
  /-- What is stored under a key, past its deadline or not. -/
  entries : String → Option Entry
  /-- In milliseconds. -/
  now : Nat

/-- The error replies of the scripts and of the commands they call. -/
inductive RedisError where
  /-- `reserve.lua` does not take the quantity for a positive number. -/
  | INVALID_QTY
  /-- `release.lua` is given neither `RELEASE` nor `COMMIT`. -/
  | INVALID_MODE
  /-- `ERR value is not an integer or out of range`. -/
  | notAnInteger
  /-- `ERR invalid expire time in 'set' command`. -/
  | invalidExpireTime
  /-- `ERR Lua redis lib command arguments must be strings or integers`. -/
  | invalidArgument
  /-- `WRONGTYPE Operation against a key holding the wrong kind of value`. -/
  | wrongType
  /-- `ERR increment or decrement would overflow`, and the same for a decrement. -/
  | overflow
  deriving DecidableEq

/-- A key is there until its deadline. -/
def Entry.live (e : Entry) (now : Nat) : Bool :=
  match e.expireAt with
  | none => true
  | some t => now < t

namespace Redis

/-- A server without keys. -/
def empty : Redis := ⟨fun _ => none, 0⟩

/-- The value that `GET` finds. -/
def lookup (r : Redis) (key : String) : Option Int :=
  ((r.entries key).filter fun e => e.live r.now).map Entry.value

/-- The key gets an entry, or loses the one that it has. -/
def put (r : Redis) (key : String) (e : Option Entry) : Redis :=
  { r with entries := fun k => if k = key then e else r.entries k }

/-- `SET key value`: a plain set clears the deadline. -/
def set (r : Redis) (key : String) (value : Int) : Redis := r.put key (some ⟨value, none⟩)

/-- `SET key value EX seconds`, with a valid number of seconds. -/
def setEx (r : Redis) (key : String) (value : Int) (seconds : Nat) : Redis :=
  r.put key (some ⟨value, some (r.now + 1000 * seconds)⟩)

/-- `INCRBY key n`: a missing key counts as zero, a live one keeps its deadline. -/
def incrBy (r : Redis) (key : String) (n : Int) : Redis :=
  match (r.entries key).filter fun e => e.live r.now with
  | some e => r.put key (some { e with value := e.value + n })
  | none => r.put key (some ⟨n, none⟩)

/-- `DEL key` -/
def del (r : Redis) (key : String) : Redis := r.put key none

/-- Some milliseconds pass. -/
def elapse (r : Redis) (ms : Nat) : Redis := { r with now := r.now + ms }

/-- The second keyspace has the key as the first has it, at the same time. -/
structure Keeps (r : Redis) (key : String) (r' : Redis) : Prop where
  /-- The key has the same entry. -/
  entries : r'.entries key = r.entries key
  /-- No time has passed. -/
  now : r'.now = r.now

end Redis

/-- A Lua script: it may end in an error reply, and keeps the writes it made before. -/
abbrev Script := ExceptT RedisError (StateM Redis)

namespace Script

variable {α : Type}

/-- `EVAL`: the keyspace afterwards, and the reply. -/
def eval (script : Script α) (r : Redis) : Redis × Except RedisError α :=
  let p := StateT.run (ExceptT.run script) r
  (p.2, p.1)

/-- The script leaves a key alone, whatever it replies. -/
def Leaves (key : String) (script : Script α) : Prop :=
  ∀ r : Redis, r.Keeps key (script.eval r).1

/-- A Lua number as an integer reply: Redis drops the fraction. -/
def truncate (x : Rat) : Int := x.num.tdiv x.den

/-- `tonumber(redis.call("GET", key))`. -/
def GET (key : String) : Script (Option Int) := do
  return (← get).lookup key

/-- `redis.call("DEL", key)` -/
def DEL (key : String) : Script Unit :=
  modify (·.del key)

/-- `redis.call("INCRBY", key, n)`: only integers are accepted. -/
def INCRBY (key : String) (n : Rat) : Script Unit :=
  if n.den = 1 then modify (·.incrBy key n.num) else throw .notAnInteger

/-- `redis.call("DECRBY", key, n)` -/
def DECRBY (key : String) (n : Rat) : Script Unit := INCRBY key (-n)

/-- `redis.call("SET", key, value, "EX", ttl)`: the time to live is a positive integer, however large;
`Keyspace.expiry` has its limit. -/
def SETEX (key : String) (value : Rat) (ttl : Option Rat) : Script Unit :=
  match ttl with
  | none => throw .invalidArgument
  | some ttl =>
    if ttl.den ≠ 1 then throw .notAnInteger
    else if ttl.num ≤ 0 then throw .invalidExpireTime
    else modify (·.setEx key (truncate value) ttl.num.toNat)

end Script

/-- The first element of a reply of `reserve.lua`. -/
inductive ReserveStatus where
  /-- The units are on hold. -/
  | OK
  /-- The counter has fewer units than were asked for. -/
  | INSUFFICIENT_STOCK
  /-- There is no counter. -/
  | UNKNOWN_SKU
  deriving DecidableEq

/-- The first element of a reply of `release.lua`. -/
inductive ReleaseStatus where
  /-- The units are back in the counter. -/
  | RELEASED
  /-- The units are consumed. -/
  | COMMITTED
  /-- The reservation is gone: released, committed or past its deadline. -/
  | ALREADY_RESOLVED
  deriving DecidableEq

open Script in
/-- What `LuaScript.reserve` does to exact numbers. `qty` and `ttl` are `tonumber(ARGV[1])` and
`tonumber(ARGV[3])`; the script reads `ARGV[2]`, the reservation id, and does not use it. -/
def exactReserve (stockKey resvKey : String) (qty : Option Rat) (_reservationId : String)
    (ttl : Option Rat) : Script (ReserveStatus × Int) :=
  match qty with
  | none => throw .INVALID_QTY
  | some qty => do
    if qty ≤ 0 then throw .INVALID_QTY
    match ← GET stockKey with
    | none => return (.UNKNOWN_SKU, 0)
    | some available =>
      if (available : Rat) < qty then return (.INSUFFICIENT_STOCK, available)
      DECRBY stockKey qty
      SETEX resvKey qty ttl
      return (.OK, truncate (available - qty))

open Script in
/-- What `LuaScript.release` does to exact numbers. `mode` is `ARGV[1]`. -/
def exactRelease (stockKey resvKey : String) (mode : String) : Script (ReleaseStatus × Int) := do
  match ← GET resvKey with
  | none => return (.ALREADY_RESOLVED, 0)
  | some qty =>
    DEL resvKey
    if mode = "RELEASE" then
      INCRBY stockKey qty
      return (.RELEASED, qty)
    else if mode = "COMMIT" then
      return (.COMMITTED, qty)
    else
      throw .INVALID_MODE

end SupplyChain
