import SupplyChain.Inventory.Proofs.ExactScriptsProofs
import SupplyChain.Inventory.Proofs.InMemoryRedisProofs
import SupplyChain.Inventory.ScriptServer

/-!
# Proofs: in range, the service over the scripts is the service over the exact model

Every operation on the texts of an exact keyspace leaves the texts of what the exact operation leaves, and is
answered the same, provided that the stored numbers have at most 53 bits and a deadline that is set has at most 63.
-/

namespace SupplyChain

open InventoryService

variable {lua : LuaNumbers} {ofInt : Int → lua.Num} {r : Redis} {w : WarehouseId} {s : Sku} {resv : ReservationId}

/-! ## The operations -/

theorem scripts_setStock (qty : Int) :
    (RedisLike.scripts lua).setStock (.ofRedis r) w s qty = .ofRedis (setStock r w s qty) := by
  rw [setStock, Redis.set, Keyspace.put_ofRedis rfl]
  rfl

theorem scripts_get (key : String) :
    ((Keyspace.ofRedis r).get key).toOption.join = (r.lookup key).map toString := by
  rw [Keyspace.get_ofRedis]
  rfl

theorem scripts_getAvailable :
    (RedisLike.scripts lua).getAvailable (.ofRedis r) w s = (.ofRedis r, getAvailable r w s) := by
  have hget : (RedisLike.scripts lua).get (.ofRedis r) (stockKey w s) =
      (.ofRedis r, (r.lookup (stockKey w s)).map toString) := by
    rw [← scripts_get]
    rfl
  rw [RedisLike.getAvailable, hget, getAvailable]
  cases r.lookup (stockKey w s) with
  | none => rfl
  | some n =>
    dsimp only [Option.map_some]
    rw [Decimal.number_toString]
    rfl

theorem available_ofRedis : (Deployment.scripts lua).available (.ofRedis r) w s = getAvailable r w s := by
  have hget : (RedisLike.scripts lua).getAvailable (.ofRedis r) w s = _ := scripts_getAvailable
  exact congrArg Prod.snd hget

variable {qty ttl : Int}

theorem scripts_reserve (hexact : lua.Exact ofInt) (hvalue : r.RangedAt (stockKey w s))
    (hdouble : Decimal.IsDouble ttl) (hpos : 0 < ttl)
    (hfits : 0 < qty → ∀ v, r.lookup (stockKey w s) = some v → qty ≤ v → r.now + 1000 * ttl < 2 ^ 63) :
    (RedisLike.scripts lua).reserve (.ofRedis r) w s qty ttl resv =
      (reserve r w s qty ttl resv).map .ofRedis id := by
  rw [RedisLike.reserve, reserve]
  by_cases hqty : qty ≤ 0
  · rw [if_pos hqty, if_pos hqty]
    rfl
  · have heval : (RedisLike.scripts lua).evalReserve (.ofRedis r) (stockKey w s) (reservationKey resv) qty
        resv ttl = _ :=
      reserve_ofRedis hexact hvalue (Int.not_le.mp hqty) hdouble hpos (hfits (Int.not_le.mp hqty))
    rw [if_neg hqty, if_neg hqty, heval]
    rcases (exactReserve _ _ _ _ _).eval r with ⟨r', e | ⟨_ | _ | _, value⟩⟩ <;> rfl

/-- A deadline of more than 63 bits is refused when the units are taken. -/
theorem scripts_reserve_late (hexact : lua.Exact ofInt) (hvalue : r.RangedAt (stockKey w s)) (hqty : 0 < qty)
    (hdouble : Decimal.IsDouble ttl) (hpos : 0 < ttl) {v : Int} (hlookup : r.lookup (stockKey w s) = some v)
    (hle : qty ≤ v) (hlate : 2 ^ 63 ≤ r.now + 1000 * ttl) :
    ∃ e, (RedisLike.scripts lua).reserve (.ofRedis r) w s qty ttl resv =
      (.ofRedis (r.incrBy (stockKey w s) (-qty)), .error e) := by
  obtain ⟨e, heval⟩ : ∃ e, (RedisLike.scripts lua).evalReserve (.ofRedis r) (stockKey w s)
      (reservationKey resv) qty resv ttl = (.ofRedis (r.incrBy (stockKey w s) (-qty)), .error e) :=
    reserve_late hexact hvalue hqty hdouble hpos hlate hlookup hle
  refine ⟨e, ?_⟩
  rw [RedisLike.reserve, if_neg (Int.not_le.mpr hqty), heval]

theorem scripts_resolve (hexact : lua.Exact ofInt) (hstock : r.RangedAt (stockKey w s))
    (hresv : r.RangedAt (reservationKey resv)) (mode : String) :
    (RedisLike.scripts lua).resolve (.ofRedis r) w s resv mode =
      (resolve r w s resv mode).map .ofRedis id := by
  have heval : (RedisLike.scripts lua).evalRelease (.ofRedis r) (stockKey w s) (reservationKey resv) mode = _ :=
    release_ofRedis hexact hstock hresv
  rw [RedisLike.resolve, resolve, heval]
  rcases (exactRelease _ _ _).eval r with ⟨r', e | ⟨status, value⟩⟩ <;> rfl

theorem scripts_run (hexact : lua.Exact ofInt) (hvalues : r.Ranged) {op : Op} (htimely : op.Timely r.now) :
    (Deployment.scripts lua).run op (.ofRedis r) = (op.run r).map .ofRedis id := by
  cases op with
  | setStock w s qty =>
    show (_, _) = (_, _)
    rw [← scripts_setStock]
    rfl
  | reserve w s qty ttl resv =>
    obtain ⟨hdouble, hpos, hfits⟩ := htimely
    show ((RedisLike.scripts lua).reserve _ w s qty ttl resv).map _ _ = _
    rw [scripts_reserve hexact (hvalues _) hdouble hpos fun _ _ _ _ => hfits]
    rfl
  | release w s resv =>
    show ((RedisLike.scripts lua).resolve _ w s resv "RELEASE").map _ _ = _
    rw [scripts_resolve hexact (hvalues _) (hvalues _)]
    rfl
  | commit w s resv =>
    show ((RedisLike.scripts lua).resolve _ w s resv "COMMIT").map _ _ = _
    rw [scripts_resolve hexact (hvalues _) (hvalues _)]
    rfl
  | elapse ms =>
    show (_, _) = (_, _)
    rw [← Keyspace.elapse_ofRedis]
    rfl

end SupplyChain
