import SupplyChain.Inventory.Redis
import SupplyChain.Text.Decimal
import Mathlib.Data.Option.NAry

/-!
# The scripts on texts

`reserve.lua` and `release.lua` as the server runs them: `KEYS` and `ARGV` are lists of texts, a key holds
a text or a value of another type, counters are 64-bit integers, and every call may fail. On integers
in range this is what `SupplyChain.Inventory.Redis` says.
-/

namespace SupplyChain

/-- What Lua makes of numbers and texts. -/
structure LuaNumbers where
  /-- The values that a Lua number can have. -/
  Num : Type
  /-- What it reads from a text, if the text is a numeral. -/
  tonumber : String → Option Num
  /-- The text that `redis.call` sends for a number. -/
  argument : Num → String
  /-- The literal `0` of the scripts. -/
  zero : Num
  /-- `<=` -/
  le : Num → Num → Bool
  /-- `<` -/
  lt : Num → Num → Bool
  /-- `-` -/
  sub : Num → Num → Num
  /-- The integer reply that a number is returned as. -/
  reply : Num → Int

/-- `string2ll`: the canonical text of a 64-bit integer. -/
def string2ll (text : String) : Option Int :=
  let n := Decimal.number text
  if toString n = text ∧ -2 ^ 63 ≤ n ∧ n < 2 ^ 63 then some n else none

/-- A number that is sent as an integer compares with zero as that integer does. -/
def LuaNumbers.Faithful (lua : LuaNumbers) : Prop :=
  ∀ x n, string2ll (lua.argument x) = some n → (lua.le x lua.zero = true ↔ n ≤ 0)

/-- What Lua makes of the text of an integer `n` of 54 or more bits: it is above every shorter integer, and if it
is a double, it is sent as its digits, or else with an exponent that no counter and no time to live has. -/
structure LuaNumbers.Large (lua : LuaNumbers) (ofInt : Int → lua.Num) (n : Int) (x : lua.Num) : Prop where
  /-- Its numeral is read. -/
  tonumber : lua.tonumber (toString n) = some x
  /-- It is above zero. -/
  positive : lua.le x lua.zero = false
  /-- It is above every number of at most 53 bits. -/
  above {m : Int} (h : m.natAbs < 2 ^ 53) : lua.lt (ofInt m) x = true
  /-- The argument is a number that Lua reads exactly. -/
  argument (h : Decimal.IsDouble n) :
    string2ll (lua.argument x) = some n ∨ string2ll (lua.argument x) = none ∧ 10 ^ 17 ≤ n

/-- Integers of at most 53 bits are read, compared, subtracted and sent exactly, and longer ones are read as
numbers above them. -/
structure LuaNumbers.Exact (lua : LuaNumbers) (ofInt : Int → lua.Num) : Prop where
  /-- The literal is the integer zero. -/
  zero : lua.zero = ofInt 0
  /-- A numeral is read as its integer. -/
  tonumber {n : Int} (h : n.natAbs < 2 ^ 53) : lua.tonumber (toString n) = some (ofInt n)
  /-- A number is sent as its numeral. -/
  argument {n : Int} (h : n.natAbs < 2 ^ 53) : lua.argument (ofInt n) = toString n
  /-- It is replied as itself. -/
  reply {n : Int} (h : n.natAbs < 2 ^ 53) : lua.reply (ofInt n) = n
  /-- Numbers of at most 53 bits compare as they are. -/
  le {m n : Int} (hm : m.natAbs < 2 ^ 53) (hn : n.natAbs < 2 ^ 53) :
    lua.le (ofInt m) (ofInt n) = decide (m ≤ n)
  /-- So do they strictly. -/
  lt {m n : Int} (hm : m.natAbs < 2 ^ 53) (hn : n.natAbs < 2 ^ 53) :
    lua.lt (ofInt m) (ofInt n) = decide (m < n)
  /-- A difference that has at most 53 bits is exact. -/
  sub {m n : Int} (h : (m - n).natAbs < 2 ^ 53) : lua.sub (ofInt m) (ofInt n) = ofInt (m - n)
  /-- Larger numerals are read as larger numbers. -/
  large {n : Int} (h : 2 ^ 53 ≤ n) : ∃ x, lua.Large ofInt n x

/-- Doubles, as far as they are integers. A text of digits is read as the double nearest to it. -/
def LuaNumbers.doubles : LuaNumbers where
  Num := Int
  tonumber text :=
    if toString (Decimal.number text) = text then some (Decimal.nearest (Decimal.number text)) else none
  argument := toString
  zero := 0
  le m n := decide (m ≤ n)
  lt m n := decide (m < n)
  sub m n := Decimal.nearest (m - n)
  reply n := n

/-- The integers alone, which is what the scripts are given. -/
def LuaNumbers.integers : LuaNumbers where
  Num := Int
  tonumber := string2ll
  argument := toString
  zero := 0
  le m n := decide (m ≤ n)
  lt m n := decide (m < n)
  sub m n := m - n
  reply n := n

/-- The value of a key. -/
inductive RedisValue where
  /-- A string, which may denote a number. -/
  | text (s : String)
  /-- A list, a hash, or another type of value. -/
  | other
  deriving DecidableEq

/-- What is stored under a key. -/
structure ValueEntry where
  /-- A text, or a value of another type. -/
  value : RedisValue
  /-- When the key is gone, if it has a deadline. -/
  expireAt : Option Nat
  deriving DecidableEq

/-- The keys of a server that are not past their deadline. -/
structure Keyspace where
  /-- What is under each key that is not past its deadline. -/
  entries : String → Option ValueEntry
  /-- The server's clock, in milliseconds. -/
  now : Nat

/-- The keys of the exact model, with the texts of their values. -/
def Keyspace.ofRedis (r : Redis) : Keyspace where
  entries key := ((r.entries key).filter fun e => e.live r.now).map fun e =>
    ⟨.text (toString e.value), e.expireAt⟩
  now := r.now

namespace Redis

/-- The number under a key is exact. -/
def RangedAt (r : Redis) (key : String) : Prop := ∀ v, r.lookup key = some v → v.natAbs < 2 ^ 53

/-- The numbers of a server are exact. -/
def Ranged (r : Redis) : Prop := ∀ key, r.RangedAt key

end Redis

namespace Keyspace

/-- A server without keys. -/
def empty : Keyspace := ⟨fun _ => none, 0⟩

/-- The keys whose deadline has come are gone. -/
def elapse (k : Keyspace) (ms : Nat) : Keyspace where
  entries key := (k.entries key).filter fun e => e.expireAt.all (k.now + ms < ·)
  now := k.now + ms

/-- The key gets an entry, or loses the one that it has. -/
def put (k : Keyspace) (key : String) (e : Option ValueEntry) : Keyspace :=
  { k with entries := fun x => if x = key then e else k.entries x }

/-- `DEL` -/
def del (k : Keyspace) (key : String) : Keyspace := k.put key none

/-- `GET`, which is an error on a value of another type. -/
def get (k : Keyspace) (key : String) : Except RedisError (Option String) :=
  match k.entries key with
  | none => .ok none
  | some ⟨.text s, _⟩ => .ok (some s)
  | some ⟨.other, _⟩ => .error .wrongType

/-- The counter of a key; a missing one counts as zero. -/
def counter (k : Keyspace) (key : String) : Except RedisError Int :=
  match k.get key with
  | .ok none => .ok 0
  | .ok (some s) => match string2ll s with
    | some v => .ok v
    | none => .error .notAnInteger
  | .error e => .error e

/-- `incrDecrCommand`: the counter changes by `n`, and a live key keeps its deadline. -/
def incrDecr (k : Keyspace) (key : String) (n : Int) : Except RedisError Keyspace := do
  let v ← k.counter key
  if v + n < -2 ^ 63 ∨ 2 ^ 63 ≤ v + n then .error .overflow
  else .ok (k.put key (some ⟨.text (toString (v + n)), (k.entries key).bind ValueEntry.expireAt⟩))

/-- `INCRBY`, whose argument has to denote a 64-bit integer. -/
def incrBy (k : Keyspace) (key arg : String) : Except RedisError Keyspace :=
  match string2ll arg with
  | some n => k.incrDecr key n
  | none => .error .notAnInteger

/-- `DECRBY`; the least 64-bit integer has no opposite. -/
def decrBy (k : Keyspace) (key arg : String) : Except RedisError Keyspace :=
  match string2ll arg with
  | some n => if n = -2 ^ 63 then .error .overflow else k.incrDecr key (-n)
  | none => .error .notAnInteger

/-- The deadline that `EX ttl` sets: the time to live is a positive integer, and the deadline in
milliseconds fits 64 bits. -/
def expiry (k : Keyspace) (ttl : String) : Except RedisError Nat :=
  match string2ll ttl with
  | some n =>
    if n ≤ 0 ∨ 2 ^ 63 ≤ k.now + 1000 * n then .error .invalidExpireTime
    else .ok (k.now + 1000 * n.toNat)
  | none => .error .notAnInteger

/-- `SET key value EX ttl` -/
def setEx (k : Keyspace) (key value ttl : String) : Except RedisError Keyspace := do
  let deadline ← k.expiry ttl
  return k.put key (some ⟨.text value, some deadline⟩)

end Keyspace

/-- A Lua script: it may end in an error, and keeps the writes it made before. -/
abbrev LuaScript := ExceptT RedisError (StateM Keyspace)

namespace LuaScript

variable {α : Type}

/-- `EVAL`: the keyspace afterwards, and the reply. -/
def eval (script : LuaScript α) (k : Keyspace) : Keyspace × Except RedisError α :=
  let p := StateT.run (ExceptT.run script) k
  (p.2, p.1)

/-- If the script ends in an error, its keys are as before. -/
def Atomic (script : LuaScript α) (KEYS : List String) (k : Keyspace) : Prop :=
  ∀ e, (script.eval k).2 = .error e → ∀ key ∈ KEYS, (script.eval k).1.entries key = k.entries key

/-- An argument of `redis.call`, which must not be `nil`. -/
def arg : Option String → LuaScript String
  | some s => pure s
  | none => throw .invalidArgument

/-- A command that writes. -/
def write (command : Keyspace → Except RedisError Keyspace) : LuaScript Unit := do
  match command (← get) with
  | .ok k => set k
  | .error e => throw e

/-- `redis.call("GET", key)` -/
def GET (key : Option String) : LuaScript (Option String) := do
  let key ← arg key
  match (← get).get key with
  | .ok value => return value
  | .error e => throw e

/-- `redis.call("DEL", key)` -/
def DEL (key : Option String) : LuaScript Unit := do
  let key ← arg key
  write fun k => .ok (k.del key)

/-- `redis.call("INCRBY", key, n)` -/
def INCRBY (key : Option String) (n : String) : LuaScript Unit := do
  let key ← arg key
  write (·.incrBy key n)

/-- `redis.call("DECRBY", key, n)` -/
def DECRBY (key : Option String) (n : String) : LuaScript Unit := do
  let key ← arg key
  write (·.decrBy key n)

/-- `redis.call("SET", key, value, "EX", ttl)` -/
def SETEX (key : Option String) (value : String) (ttl : Option String) : LuaScript Unit := do
  let key ← arg key
  let ttl ← arg ttl
  write (·.setEx key value ttl)

variable (lua : LuaNumbers)

/-- `reserve.lua` -/
def reserve (KEYS ARGV : List String) : LuaScript (ReserveStatus × Int) := do
  let stockKey := KEYS[0]?
  let resvKey := KEYS[1]?
  let qty := ARGV[0]?.bind lua.tonumber
  let ttl := ARGV[2]?.bind lua.tonumber
  match qty with
  | none => throw .INVALID_QTY
  | some qty =>
    if lua.le qty lua.zero then throw .INVALID_QTY
    match (← GET stockKey).bind lua.tonumber with
    | none => return (.UNKNOWN_SKU, 0)
    | some available =>
      if lua.lt available qty then return (.INSUFFICIENT_STOCK, lua.reply available)
      DECRBY stockKey (lua.argument qty)
      SETEX resvKey (lua.argument qty) (ttl.map lua.argument)
      return (.OK, lua.reply (lua.sub available qty))

/-- `release.lua` -/
def release (KEYS ARGV : List String) : LuaScript (ReleaseStatus × Int) := do
  let stockKey := KEYS[0]?
  let resvKey := KEYS[1]?
  let mode := ARGV[0]?
  match (← GET resvKey).bind lua.tonumber with
  | none => return (.ALREADY_RESOLVED, 0)
  | some qty =>
    DEL resvKey
    if mode = some "RELEASE" then
      INCRBY stockKey (lua.argument qty)
      return (.RELEASED, lua.reply qty)
    else if mode = some "COMMIT" then
      return (.COMMITTED, lua.reply qty)
    else
      throw .INVALID_MODE

/-! ## When the writes of the scripts go through -/

/-- `reserve.lua` takes the quantity from the stock. -/
def Takes (k : Keyspace) (KEYS ARGV : List String) : Prop :=
  ∃ stockKey qty text available k', KEYS[0]? = some stockKey ∧ ARGV[0]?.bind lua.tonumber = some qty ∧
    lua.le qty lua.zero = false ∧ k.get stockKey = .ok (some text) ∧ lua.tonumber text = some available ∧
    lua.lt available qty = false ∧ k.decrBy stockKey (lua.argument qty) = .ok k'

/-- There is a reservation key, and the time to live is one that `SET` accepts. -/
def Expires (k : Keyspace) (KEYS ARGV : List String) : Prop :=
  ∃ resvKey ttl deadline, KEYS[1]? = some resvKey ∧ ARGV[2]?.bind lua.tonumber = some ttl ∧
    k.expiry (lua.argument ttl) = .ok deadline

/-- `release.lua` finds a reservation. -/
def Finds (k : Keyspace) (KEYS : List String) (resvKey : String) (qty : lua.Num) : Prop :=
  KEYS[1]? = some resvKey ∧ ∃ text, k.get resvKey = .ok (some text) ∧ lua.tonumber text = some qty

/-- The mode is one of the two, and a quantity that is given back can be added to the stock. -/
def Resolves (k : Keyspace) (KEYS ARGV : List String) (resvKey : String) (qty : lua.Num) : Prop :=
  ARGV[0]? = some "COMMIT" ∨ (ARGV[0]? = some "RELEASE" ∧
    ∃ stockKey k', KEYS[0]? = some stockKey ∧
      (k.del resvKey).incrBy stockKey (lua.argument qty) = .ok k')

/-- `release.lua` finds no reservation, or resolves the one it finds. -/
def Resolvable (k : Keyspace) (KEYS ARGV : List String) : Prop :=
  ∀ resvKey qty, Finds lua k KEYS resvKey qty → Resolves lua k KEYS ARGV resvKey qty

end LuaScript

/-! ## The in-process stand-in -/

/-- What JavaScript makes of numbers and texts. -/
structure JsNumbers where
  /-- The values that a JavaScript number can have. -/
  Num : Type
  /-- `Number(text)` -/
  Number : String → Num
  /-- `String(number)` -/
  toText : Num → String
  /-- What `Number` gives for a text that is no numeral. -/
  NaN : Num
  /-- The number of an integer. -/
  ofInt : Int → Num
  /-- `Number.isFinite` -/
  isFinite : Num → Bool
  /-- `<=` -/
  le : Num → Num → Bool
  /-- `<` -/
  lt : Num → Num → Bool
  /-- `+` -/
  add : Num → Num → Num
  /-- `-` -/
  sub : Num → Num → Num
  /-- `*` -/
  mul : Num → Num → Num

/-- The integers and NaN. -/
def JsNumbers.integers : JsNumbers where
  Num := Option Int
  Number := string2ll
  toText x := (x.map toString).getD "NaN"
  NaN := none
  ofInt := some
  isFinite := Option.isSome
  le x y := (Option.map₂ (fun m n => decide (m ≤ n)) x y).getD false
  lt x y := (Option.map₂ (fun m n => decide (m < n)) x y).getD false
  add := Option.map₂ (· + ·)
  sub := Option.map₂ (· - ·)
  mul := Option.map₂ (· * ·)

namespace JsNumbers

variable (js : JsNumbers)

/-- `Number(x)` of a `string | number`, or of an argument that is not there. -/
def toNumber : Option (String ⊕ js.Num) → js.Num
  | none => js.NaN
  | some (.inl s) => js.Number s
  | some (.inr x) => x

/-- `String(x)` -/
def toString : Option (String ⊕ js.Num) → String
  | none => "undefined"
  | some (.inl s) => s
  | some (.inr x) => js.toText x

end JsNumbers

/-- `InMemoryRedisClient`, with every argument that `eval` may hand to its scripts: a key that is not
given is `undefined`, which is a key of a `Map` like another. -/
structure JsRedisClient (js : JsNumbers) where
  /-- The texts under the keys; a key may be `undefined`. -/
  store : Option String → Option String
  /-- The deadlines of keys that have one. -/
  expiresAt : Option String → Option js.Num
  /-- `Date.now()` -/
  now : Nat

namespace JsRedisClient

variable {js : JsNumbers}

/-- `this.store.set(key, value)` -/
def storeSet (c : JsRedisClient js) (key : Option String) (value : String) : JsRedisClient js :=
  { c with store := fun k => if k = key then some value else c.store k }

/-- Delete the key from both maps. -/
def delete (c : JsRedisClient js) (key : Option String) : JsRedisClient js :=
  { c with
    store := fun k => if k = key then none else c.store k
    expiresAt := fun k => if k = key then none else c.expiresAt k }

/-- Whether the key is there; one whose deadline is reached is deleted first. -/
def isLive (c : JsRedisClient js) (key : Option String) : JsRedisClient js × Bool :=
  match c.expiresAt key with
  | some exp => if js.le exp (js.ofInt c.now) then (c.delete key, false) else (c, (c.store key).isSome)
  | none => (c, (c.store key).isSome)

/-- `Number(this.store.get(key))` -/
def storedNumber (c : JsRedisClient js) (key : Option String) : js.Num :=
  js.toNumber ((c.store key).map .inl)

/-- `evalReserve`, of any arrays of keys and arguments. -/
def evalReserve (c : JsRedisClient js) (keys : List String) (args : List (String ⊕ js.Num)) :
    JsRedisClient js × Except RedisError (ReserveStatus × js.Num) :=
  let stockKey := keys[0]?
  let resvKey := keys[1]?
  let qty := js.toNumber args[0]?
  let ttlSeconds := js.toNumber args[2]?
  if !js.isFinite qty || js.le qty (js.ofInt 0) then (c, .error .INVALID_QTY)
  else
    let (c, live) := c.isLive stockKey
    if !live then (c, .ok (.UNKNOWN_SKU, js.ofInt 0))
    else
      let available := c.storedNumber stockKey
      if js.lt available qty then (c, .ok (.INSUFFICIENT_STOCK, available))
      else
        let remaining := js.sub available qty
        let c := c.storeSet stockKey (js.toText remaining)
        let c := c.storeSet resvKey (js.toText qty)
        let exp := js.add (js.ofInt c.now) (js.mul ttlSeconds (js.ofInt 1000))
        ({ c with expiresAt := fun k => if k = resvKey then some exp else c.expiresAt k }, .ok (.OK, remaining))

/-- `evalRelease`, of any arrays of keys and arguments. -/
def evalRelease (c : JsRedisClient js) (keys : List String) (args : List (String ⊕ js.Num)) :
    JsRedisClient js × Except RedisError (ReleaseStatus × js.Num) :=
  let stockKey := keys[0]?
  let resvKey := keys[1]?
  let mode := js.toString args[0]?
  let (c, live) := c.isLive resvKey
  if !live then (c, .ok (.ALREADY_RESOLVED, js.ofInt 0))
  else
    let qty := c.storedNumber resvKey
    let c := c.delete resvKey
    if mode = "RELEASE" then
      let (c, stockLive) := c.isLive stockKey
      let current := if stockLive then c.storedNumber stockKey else js.ofInt 0
      (c.storeSet stockKey (js.toText (js.add current qty)), .ok (.RELEASED, qty))
    else if mode = "COMMIT" then (c, .ok (.COMMITTED, qty))
    else (c, .error .INVALID_MODE)

/-- If the evaluation throws, its two keys are as before. -/
def Atomic {α : Type} (r : JsRedisClient js × Except RedisError α) (keys : List String)
    (c : JsRedisClient js) : Prop :=
  ∀ e, r.2 = .error e → ∀ key ∈ [keys[0]?, keys[1]?],
    r.1.store key = c.store key ∧ r.1.expiresAt key = c.expiresAt key

/-- The reservation is not live, or the mode is one of the two. -/
def Resolvable (c : JsRedisClient js) (keys : List String) (args : List (String ⊕ js.Num)) : Prop :=
  (c.isLive keys[1]?).2 = true → js.toString args[0]? = "RELEASE" ∨ js.toString args[0]? = "COMMIT"

end JsRedisClient

end SupplyChain
