import SupplyChain.Inventory.Proofs.LuaScriptsProofs
import SupplyChain.Inventory.Proofs.RedisProofs
import SupplyChain.Text.Double
import Mathlib.Tactic.Lift

/-!
# Proofs: on integers in range, the scripts do what the exact model says

The texts of a keyspace of integers are read, added and written back without loss as long as every
number has at most 53 bits, and so does what either script replies.
-/

namespace SupplyChain

theorem string2ll_toString {n : Int} (hlow : -2 ^ 63 ≤ n) (hhigh : n < 2 ^ 63) :
    string2ll (toString n) = some n := by
  rw [string2ll, Decimal.number_toString, if_pos ⟨rfl, hlow, hhigh⟩]

namespace Keyspace

variable {r : Redis} {key : String}

theorem put_ofRedis {e : Entry} (h : e.live r.now = true) :
    ofRedis (r.put key (some e)) = (ofRedis r).put key (some ⟨.text (toString e.value), e.expireAt⟩) := by
  unfold ofRedis put Redis.put
  congr 1
  funext x
  by_cases hx : x = key
  · simp [hx, Option.filter_some, h]
  · simp [hx]

theorem del_ofRedis : ofRedis (r.del key) = (ofRedis r).del key := by
  unfold ofRedis del put Redis.del Redis.put
  congr 1
  funext x
  by_cases hx : x = key <;> simp [hx]

theorem get_ofRedis : (ofRedis r).get key = .ok ((r.lookup key).map toString) := by
  unfold get ofRedis Redis.lookup
  dsimp only
  cases (r.entries key).filter fun e => e.live r.now <;> rfl

theorem elapse_ofRedis (ms : Nat) : (ofRedis r).elapse ms = ofRedis (r.elapse ms) := by
  unfold elapse ofRedis Redis.elapse
  congr 1
  funext key
  dsimp only
  rcases r.entries key with _ | ⟨value, _ | deadline⟩
  · rfl
  · rfl
  · by_cases hlater : r.now + ms < deadline
    · have hnow : r.now < deadline := by omega
      simp [Option.filter_some, Entry.live, hlater, hnow]
    · by_cases hnow : r.now < deadline <;> simp [Option.filter_some, Entry.live, hlater, hnow]

theorem incrBy_ofRedis {v : Int} {deadline : Option Nat}
    (h : (ofRedis r).entries key = some ⟨.text (toString v), deadline⟩) (n : Int) :
    ofRedis (r.incrBy key n) = (ofRedis r).put key (some ⟨.text (toString (v + n)), deadline⟩) := by
  obtain ⟨e, he, heq⟩ := Option.map_eq_some_iff.mp h
  simp only [ValueEntry.mk.injEq, RedisValue.text.injEq] at heq
  have hlive : ({ e with value := e.value + n } : Entry).live r.now = true :=
    (Option.filter_eq_some_iff.mp he).2
  rw [Redis.incrBy, he, ← toString_injective heq.1, ← heq.2]
  exact put_ofRedis hlive

theorem counter_ofRedis (h : r.RangedAt key) :
    (ofRedis r).counter key = .ok ((r.lookup key).getD 0) := by
  rw [counter, get_ofRedis]
  cases hv : r.lookup key with
  | none => rfl
  | some v =>
    have hrange := h v hv
    dsimp only [Option.map_some]
    rw [string2ll_toString (by omega) (by omega)]
    rfl

theorem incrDecr_ofRedis {n : Int} (h : r.RangedAt key)
    (hn : n.natAbs < 2 ^ 53) : (ofRedis r).incrDecr key n = .ok (ofRedis (r.incrBy key n)) := by
  have hzero : ((r.lookup key).getD 0).natAbs < 2 ^ 53 := by
    cases hv : r.lookup key with
    | none => decide
    | some v => exact h v hv
  rw [incrDecr, counter_ofRedis h]
  dsimp only [bind, Except.bind]
  rw [if_neg (by omega)]
  unfold Redis.incrBy
  cases he : (r.entries key).filter fun e => e.live r.now with
  | none =>
    have hl : r.lookup key = none := by simp [Redis.lookup, he]
    have hentry : (ofRedis r).entries key = none := by simp [ofRedis, he]
    rw [put_ofRedis rfl, hl, hentry]
    simp
  | some e =>
    have hl : r.lookup key = some e.value := by simp [Redis.lookup, he]
    have hlive : ({ e with value := e.value + n } : Entry).live r.now = true :=
      (Option.filter_eq_some_iff.mp he).2
    have hentry : (ofRedis r).entries key = some ⟨.text (toString e.value), e.expireAt⟩ := by
      simp [ofRedis, he]
    rw [put_ofRedis hlive, hl, hentry]
    rfl

end Keyspace

variable {lua : LuaNumbers} {ofInt : Int → lua.Num} {r : Redis}

namespace LuaScript

theorem eval_GET_ofRedis (key : String) :
    (GET (some key)).eval (.ofRedis r) = (.ofRedis r, .ok ((r.lookup key).map toString)) := by
  rw [eval_GET, Keyspace.get_ofRedis]

theorem eval_INCRBY_ofRedis {key : String} {n : Int} (hn : n.natAbs < 2 ^ 53)
    (h : r.RangedAt key) :
    (INCRBY (some key) (toString n)).eval (.ofRedis r) = (.ofRedis (r.incrBy key n), .ok ()) := by
  rw [eval_INCRBY, Keyspace.incrBy, string2ll_toString (by omega) (by omega)]
  dsimp only
  rw [Keyspace.incrDecr_ofRedis h hn]

end LuaScript

/-! ## `reserve.lua` on a counter -/

section Reserve

variable {k : Keyspace} {stockKey resvKey reservationId : String} {qty ttl v : Int} {deadline : Option Nat}

/-- A positive quantity is read as a positive number, which compares with a counter as the quantity does. -/
theorem LuaNumbers.Exact.quantity (hexact : lua.Exact ofInt) (hqty : 0 < qty) :
    ∃ x, lua.tonumber (toString qty) = some x ∧ lua.le x lua.zero = false ∧
      ∀ {v : Int}, v.natAbs < 2 ^ 53 → lua.lt (ofInt v) x = decide (v < qty) := by
  by_cases hsmall : qty < 2 ^ 53
  · have hrange : qty.natAbs < 2 ^ 53 := by omega
    refine ⟨ofInt qty, hexact.tonumber hrange, ?_, fun hv => hexact.lt hv hrange⟩
    rw [hexact.zero, hexact.le hrange (by decide), decide_eq_false_iff_not]
    omega
  · obtain ⟨x, hlarge⟩ := hexact.large (Int.not_lt.mp hsmall)
    refine ⟨x, hlarge.tonumber, hlarge.positive, fun hv => ?_⟩
    rw [hlarge.above hv, eq_comm, decide_eq_true_eq]
    omega

/-- A time to live is sent as its digits, or so that no deadline comes of it. -/
theorem LuaNumbers.Exact.timeToLive (hexact : lua.Exact ofInt) (hdouble : Decimal.IsDouble ttl)
    (hpos : 0 < ttl) : ∃ x, lua.tonumber (toString ttl) = some x ∧
      (string2ll (lua.argument x) = some ttl ∨ string2ll (lua.argument x) = none ∧ 10 ^ 17 ≤ ttl) := by
  by_cases hsmall : ttl < 2 ^ 53
  · have hrange : ttl.natAbs < 2 ^ 53 := by omega
    refine ⟨ofInt ttl, hexact.tonumber hrange, Or.inl ?_⟩
    rw [hexact.argument hrange, string2ll_toString (by omega) (by omega)]
  · obtain ⟨x, hlarge⟩ := hexact.large (Int.not_lt.mp hsmall)
    exact ⟨x, hlarge.tonumber, hlarge.argument hdouble⟩

namespace LuaScript

/-- The time to live that `reserve.lua` hands to `SET`. -/
def ttlArgument (lua : LuaNumbers) (ttl : Int) : Option String :=
  (lua.tonumber (toString ttl)).map lua.argument

theorem eval_SETEX_of_fits (hexact : lua.Exact ofInt) (hdouble : Decimal.IsDouble ttl) (hpos : 0 < ttl)
    (hfits : k.now + 1000 * ttl < 2 ^ 63) (value : String) :
    (SETEX (some resvKey) value (ttlArgument lua ttl)).eval k =
      (k.put resvKey (some ⟨.text value, some (k.now + 1000 * ttl.toNat)⟩), .ok ()) := by
  obtain ⟨x, hread, hsent⟩ := hexact.timeToLive hdouble hpos
  have harg : string2ll (lua.argument x) = some ttl := hsent.resolve_right fun hlong => by omega
  rw [ttlArgument, hread, Option.map_some, eval_SETEX, Keyspace.expiry, harg]
  dsimp only
  rw [if_neg (by omega)]

theorem eval_SETEX_of_late (hexact : lua.Exact ofInt) (hdouble : Decimal.IsDouble ttl) (hpos : 0 < ttl)
    (hlate : 2 ^ 63 ≤ k.now + 1000 * ttl) (value : String) :
    ∃ e, (SETEX (some resvKey) value (ttlArgument lua ttl)).eval k = (k, .error e) := by
  obtain ⟨x, hread, hsent | ⟨hsent, -⟩⟩ := hexact.timeToLive hdouble hpos
  · refine ⟨.invalidExpireTime, ?_⟩
    rw [ttlArgument, hread, Option.map_some, eval_SETEX, Keyspace.expiry, hsent]
    dsimp only
    rw [if_pos (Or.inr hlate)]
  · refine ⟨.notAnInteger, ?_⟩
    rw [ttlArgument, hread, Option.map_some, eval_SETEX, Keyspace.expiry, hsent]

variable (ttl reservationId)

theorem reserve_of_missing (hexact : lua.Exact ofInt) (hqty : 0 < qty) (hstock : k.entries stockKey = none) :
    (reserve lua [stockKey, resvKey] [toString qty, reservationId, toString ttl]).eval k =
      (k, .ok (.UNKNOWN_SKU, 0)) := by
  obtain ⟨x, hread, hpos, -⟩ := hexact.quantity hqty
  have hget : k.get stockKey = .ok none := by rw [Keyspace.get, hstock]
  unfold reserve
  simp only [List.getElem?_cons_zero, List.getElem?_cons_succ, Option.bind_some, hread, hpos,
    Bool.false_eq_true, if_false]
  rw [eval_bind, eval_GET, hget]
  rfl

variable (hstock : k.entries stockKey = some ⟨.text (toString v), deadline⟩) (hv : v.natAbs < 2 ^ 53)
include hstock hv

theorem reserve_of_short (hexact : lua.Exact ofInt) (hqty : 0 < qty) (hshort : v < qty) :
    (reserve lua [stockKey, resvKey] [toString qty, reservationId, toString ttl]).eval k =
      (k, .ok (.INSUFFICIENT_STOCK, v)) := by
  obtain ⟨x, hread, hpos, hlt⟩ := hexact.quantity hqty
  have hget : k.get stockKey = .ok (some (toString v)) := by rw [Keyspace.get, hstock]
  unfold reserve
  simp only [List.getElem?_cons_zero, List.getElem?_cons_succ, Option.bind_some, hread, hpos,
    Bool.false_eq_true, if_false]
  rw [eval_bind, eval_GET, hget]
  dsimp only [Option.bind_some]
  rw [hexact.tonumber hv]
  dsimp only
  rw [hlt hv, if_pos (decide_eq_true hshort), hexact.reply hv]
  rfl

/-- A counter that covers the quantity is decremented before the reservation is written. -/
theorem reserve_of_stock (hexact : lua.Exact ofInt) (hqty : 0 < qty) (hle : qty ≤ v) :
    (reserve lua [stockKey, resvKey] [toString qty, reservationId, toString ttl]).eval k =
      LuaScript.eval (do
        SETEX (some resvKey) (toString qty) (ttlArgument lua ttl)
        return (.OK, v - qty)) (k.put stockKey (some ⟨.text (toString (v - qty)), deadline⟩)) := by
  have hrange : qty.natAbs < 2 ^ 53 := by omega
  have hremaining : (v - qty).natAbs < 2 ^ 53 := by omega
  have hget : k.get stockKey = .ok (some (toString v)) := by rw [Keyspace.get, hstock]
  have hdecr : k.decrBy stockKey (toString qty) =
      .ok (k.put stockKey (some ⟨.text (toString (v - qty)), deadline⟩)) := by
    rw [Keyspace.decrBy, string2ll_toString (by omega) (by omega)]
    dsimp only
    rw [if_neg (by omega), Keyspace.incrDecr, Keyspace.counter, hget]
    dsimp only
    rw [string2ll_toString (by omega) (by omega)]
    dsimp only [bind, Except.bind]
    rw [if_neg (by omega), hstock, ← Int.sub_eq_add_neg]
    rfl
  have hpos : lua.le (ofInt qty) lua.zero = false := by
    rw [hexact.zero, hexact.le hrange (by decide), decide_eq_false_iff_not]
    omega
  unfold reserve
  simp only [List.getElem?_cons_zero, List.getElem?_cons_succ, Option.bind_some, hexact.tonumber hrange, hpos,
    Bool.false_eq_true, if_false]
  rw [eval_bind, eval_GET, hget]
  dsimp only [Option.bind_some]
  rw [hexact.tonumber hv]
  dsimp only
  rw [hexact.lt hv hrange, if_neg (by rw [decide_eq_true_eq]; omega), eval_bind, hexact.argument hrange,
    eval_DECRBY, hdecr, hexact.sub hremaining, hexact.reply hremaining]
  rfl

/-- With a deadline that is not refused, the reservation is made. -/
theorem reserve_of_fits (hexact : lua.Exact ofInt) (hqty : 0 < qty) (hle : qty ≤ v)
    (hdouble : Decimal.IsDouble ttl) (hpos : 0 < ttl) (hfits : k.now + 1000 * ttl < 2 ^ 63) :
    (reserve lua [stockKey, resvKey] [toString qty, reservationId, toString ttl]).eval k =
      ((k.put stockKey (some ⟨.text (toString (v - qty)), deadline⟩)).put resvKey
        (some ⟨.text (toString qty), some (k.now + 1000 * ttl.toNat)⟩), .ok (.OK, v - qty)) := by
  have hfits' : (k.put stockKey (some ⟨.text (toString (v - qty)), deadline⟩)).now + 1000 * ttl < 2 ^ 63 := hfits
  rw [reserve_of_stock reservationId ttl hstock hv hexact hqty hle, eval_bind,
    eval_SETEX_of_fits hexact hdouble hpos hfits']
  rfl

end LuaScript

end Reserve

section OfRedis

variable {stockKey resvKey reservationId : String} {qty ttl : Int}

/-- What `reserve.lua` finds under the stock key. -/
theorem Keyspace.entries_ofRedis (key : String) : (ofRedis r).entries key = none ∧ r.lookup key = none ∨
    ∃ v deadline, (ofRedis r).entries key = some ⟨.text (toString v), deadline⟩ ∧ r.lookup key = some v := by
  unfold ofRedis Redis.lookup
  dsimp only
  cases (r.entries key).filter fun e => e.live r.now with
  | none => exact Or.inl ⟨rfl, rfl⟩
  | some e => exact Or.inr ⟨e.value, e.expireAt, rfl, rfl⟩

/-- On integers of at most 53 bits, and with a deadline that fits 63 if one is set, `reserve.lua` does what the
exact model says. -/
theorem reserve_ofRedis (hexact : lua.Exact ofInt) (hvalue : r.RangedAt stockKey) (hqty : 0 < qty)
    (hdouble : Decimal.IsDouble ttl) (hpos : 0 < ttl)
    (hfits : ∀ v, r.lookup stockKey = some v → qty ≤ v → r.now + 1000 * ttl < 2 ^ 63) :
    (LuaScript.reserve lua [stockKey, resvKey] [toString qty, reservationId, toString ttl]).eval (.ofRedis r) =
      ((exactReserve stockKey resvKey (some qty) reservationId (some ttl)).eval r).map .ofRedis id := by
  rw [exactReserve_eval r stockKey resvKey reservationId hqty hpos]
  rcases Keyspace.entries_ofRedis (r := r) stockKey with ⟨hnone, hlookup⟩ | ⟨v, deadline, hstock, hlookup⟩
  · rw [LuaScript.reserve_of_missing reservationId ttl hexact hqty hnone, hlookup]
    rfl
  · have hv := hvalue v hlookup
    rw [hlookup]
    dsimp only
    by_cases hshort : v < qty
    · rw [LuaScript.reserve_of_short reservationId ttl hstock hv hexact hqty hshort, if_pos hshort]
      rfl
    · rw [LuaScript.reserve_of_fits reservationId ttl hstock hv hexact hqty (Int.not_lt.mp hshort) hdouble hpos
        (hfits v hlookup (Int.not_lt.mp hshort)), if_neg hshort]
      have hlive : (Entry.mk qty (some ((r.incrBy stockKey (-qty)).now + 1000 * ttl.toNat))).live
          (r.incrBy stockKey (-qty)).now = true := by
        rw [Entry.live_some, decide_eq_true_eq]
        omega
      dsimp only [Prod.map]
      rw [Redis.setEx, Keyspace.put_ofRedis hlive, Keyspace.incrBy_ofRedis hstock, ← Int.sub_eq_add_neg,
        Redis.now_incrBy]
      rfl

/-- With a later deadline, the units are taken all the same. -/
theorem reserve_late (hexact : lua.Exact ofInt) (hvalue : r.RangedAt stockKey) (hqty : 0 < qty)
    (hdouble : Decimal.IsDouble ttl) (hpos : 0 < ttl) (hlate : 2 ^ 63 ≤ r.now + 1000 * ttl) {v : Int}
    (hlookup : r.lookup stockKey = some v) (hle : qty ≤ v) :
    ∃ e, (LuaScript.reserve lua [stockKey, resvKey] [toString qty, reservationId, toString ttl]).eval
      (.ofRedis r) = (.ofRedis (r.incrBy stockKey (-qty)), .error e) := by
  rcases Keyspace.entries_ofRedis (r := r) stockKey with ⟨-, hnone⟩ | ⟨v', deadline, hstock, hlookup'⟩
  · rw [hlookup] at hnone
    cases hnone
  · obtain rfl : v = v' := Option.some.inj (hlookup.symm.trans hlookup')
    have hlate' : 2 ^ 63 ≤ ((Keyspace.ofRedis r).put stockKey
      (some ⟨.text (toString (v - qty)), deadline⟩)).now + 1000 * ttl := hlate
    obtain ⟨e, hfail⟩ := LuaScript.eval_SETEX_of_late hexact hdouble hpos hlate' (toString qty)
    refine ⟨e, ?_⟩
    rw [LuaScript.reserve_of_stock reservationId ttl hstock (hvalue v hlookup) hexact hqty hle,
      LuaScript.eval_bind, hfail, Keyspace.incrBy_ofRedis hstock, ← Int.sub_eq_add_neg]

end OfRedis

/-- The same of `release.lua`. -/
theorem release_ofRedis (hexact : lua.Exact ofInt) {stockKey resvKey mode : String}
    (hstock : r.RangedAt stockKey) (hresv : r.RangedAt resvKey) :
    (LuaScript.release lua [stockKey, resvKey] [mode]).eval (.ofRedis r) =
      ((exactRelease stockKey resvKey mode).eval r).map .ofRedis id := by
  unfold LuaScript.release exactRelease
  simp only [List.getElem?_cons_zero, List.getElem?_cons_succ, Option.some.injEq]
  rw [LuaScript.eval_bind, LuaScript.eval_GET_ofRedis, Script.eval_bind, Script.eval_GET]
  dsimp only
  cases hlookup : r.lookup resvKey with
  | none => rfl
  | some qty =>
    have hqty := hresv qty hlookup
    have hlevel : (r.del resvKey).RangedAt stockKey := by
      intro v hv
      rw [Redis.lookup_del] at hv
      split at hv
      · cases hv
      · exact hstock v hv
    dsimp only [Option.map_some, Option.bind_some]
    rw [hexact.tonumber hqty]
    dsimp only
    rw [LuaScript.eval_bind, LuaScript.eval_DEL, ← Keyspace.del_ofRedis, Script.eval_bind, Script.eval_DEL]
    dsimp only
    by_cases hrelease : mode = "RELEASE"
    · rw [if_pos hrelease, if_pos hrelease, LuaScript.eval_bind, hexact.argument hqty,
        LuaScript.eval_INCRBY_ofRedis hqty hlevel, Script.eval_bind, Script.eval_INCRBY, hexact.reply hqty]
      rfl
    · rw [if_neg hrelease, if_neg hrelease, hexact.reply hqty]
      split <;> rfl

/-! ## Doubles -/

theorem two_pow_le_nearest {n : Int} (h : 2 ^ 53 ≤ n) : 2 ^ 53 ≤ Decimal.nearest n := by
  lift n to Nat using (by omega)
  have hrounded := Double.le_rounded (x := (n : ℚ)) (n := 2 ^ 53) (by decide) (le_refl _) (by exact_mod_cast h)
  rw [Double.rounded_natCast] at hrounded
  rw [Decimal.nearest, Int.sign_eq_one_of_pos (by omega), one_mul, Int.natAbs_natCast]
  exact_mod_cast hrounded

theorem doubles_tonumber (n : Int) :
    LuaNumbers.doubles.tonumber (toString n) = some (Decimal.nearest n) := by
  unfold LuaNumbers.doubles
  dsimp only
  rw [Decimal.number_toString, if_pos rfl]

theorem doubles_exact : LuaNumbers.doubles.Exact id where
  zero := rfl
  tonumber h := by
    rw [doubles_tonumber, Decimal.isDouble_of_lt h]
    rfl
  argument _ := rfl
  reply _ := rfl
  le _ _ := rfl
  lt _ _ := rfl
  sub h := Decimal.isDouble_of_lt h
  large {n} h := by
    have hlarge := two_pow_le_nearest h
    refine ⟨Decimal.nearest n, doubles_tonumber n, ?_, fun {m} hm => ?_, fun hdouble => ?_⟩
    · show decide (Decimal.nearest n ≤ 0) = false
      rw [decide_eq_false_iff_not]
      omega
    · exact decide_eq_true (show m < Decimal.nearest n by omega)
    · show string2ll (toString (Decimal.nearest n)) = _ ∨ string2ll (toString (Decimal.nearest n)) = _ ∧ _
      rw [hdouble]
      by_cases hfits : n < 2 ^ 63
      · exact Or.inl (string2ll_toString (by omega) hfits)
      · refine Or.inr ⟨?_, by omega⟩
        rw [string2ll, Decimal.number_toString, if_neg fun hrange => hfits hrange.2.2]

end SupplyChain
