import SupplyChain.Inventory.Redis
import Mathlib.Algebra.Order.Ring.Rat
import Mathlib.Data.Rat.Cast.Defs

/-!
# Proofs: lookups after a command, and what the scripts do on integer arguments
-/

namespace SupplyChain

@[simp] theorem Entry.live_none (v : Int) (now : Nat) : (Entry.mk v none).live now = true := rfl

@[simp] theorem Entry.live_some (v : Int) (t now : Nat) :
    (Entry.mk v (some t)).live now = decide (now < t) := rfl

namespace Redis

variable {r : Redis} {key x : String}

theorem lookup_put (e : Option Entry) : (r.put key e).lookup x =
    if x = key then (e.filter fun e => e.live r.now).map Entry.value else r.lookup x := by
  by_cases h : x = key <;> simp [lookup, put, h]

theorem lookup_set (v : Int) : (r.set key v).lookup x = if x = key then some v else r.lookup x := by
  simp [set, lookup_put, Option.filter_some]

theorem lookup_setEx (v : Int) {seconds : Nat} (h : 0 < seconds) :
    (r.setEx key v seconds).lookup x = if x = key then some v else r.lookup x := by
  simp [setEx, lookup_put, Option.filter_some, h]

theorem lookup_del : (r.del key).lookup x = if x = key then none else r.lookup x := by
  simp [del, lookup_put]

theorem lookup_incrBy (n : Int) : (r.incrBy key n).lookup x =
    if x = key then some ((r.lookup key).getD 0 + n) else r.lookup x := by
  unfold incrBy
  cases he : (r.entries key).filter fun e => e.live r.now with
  | none =>
    have hl : r.lookup key = none := by simp [lookup, he]
    simp [lookup_put, hl, Option.filter_some]
  | some e =>
    have hl : r.lookup key = some e.value := by simp [lookup, he]
    have hlive : ({ e with value := e.value + n } : Entry).live r.now = true :=
      (Option.filter_eq_some_iff.mp he).2
    simp [lookup_put, hl, hlive, Option.filter_some]

@[simp] theorem now_put (e : Option Entry) : (r.put key e).now = r.now := rfl

@[simp] theorem now_incrBy (n : Int) : (r.incrBy key n).now = r.now := by
  unfold incrBy; split <;> rfl

end Redis

namespace Script

variable {α β : Type} {r : Redis}

@[simp] theorem eval_pure (a : α) : (pure a : Script α).eval r = (r, .ok a) := rfl

@[simp] theorem eval_throw (e : RedisError) : (throw e : Script α).eval r = (r, .error e) := rfl

theorem eval_bind (s : Script α) (f : α → Script β) : (s >>= f).eval r =
    match s.eval r with
    | (r', .ok a) => (f a).eval r'
    | (r', .error e) => (r', .error e) := by
  simp only [eval, ExceptT.run_bind, StateT.run_bind]
  rcases h : StateT.run (ExceptT.run s) r with ⟨e | a, r'⟩ <;> rfl

@[simp] theorem eval_GET (key : String) : (GET key).eval r = (r, .ok (r.lookup key)) := rfl

@[simp] theorem eval_DEL (key : String) : (DEL key).eval r = (r.del key, .ok ()) := rfl

@[simp] theorem eval_INCRBY (key : String) (n : Int) :
    (INCRBY key n).eval r = (r.incrBy key n, .ok ()) := by
  simp only [INCRBY, Rat.den_intCast, Rat.num_intCast]
  rfl

@[simp] theorem eval_DECRBY (key : String) (n : Int) :
    (DECRBY key n).eval r = (r.incrBy key (-n), .ok ()) := by
  rw [DECRBY, ← eval_INCRBY]
  simp

@[simp] theorem truncate_intCast (n : Int) : truncate n = n := by simp [truncate]

@[simp] theorem eval_SETEX (key : String) (v : Int) {ttl : Int} (h : 0 < ttl) :
    (SETEX key v (some ttl)).eval r = (r.setEx key v ttl.toNat, .ok ()) := by
  have hnum : ¬ (ttl : Rat).num ≤ 0 := by simpa using h
  rw [SETEX, if_neg (by simp), if_neg hnum, truncate_intCast, Rat.num_intCast]
  rfl

end Script

/-- `reserve.lua` on a positive quantity and a positive time to live never fails: it finds no stock
key, or too little stock, or moves the quantity from the stock key to the reservation key. -/
theorem exactReserve_eval (r : Redis) (stockKey resvKey id : String) {qty ttl : Int} (hq : 0 < qty)
    (ht : 0 < ttl) :
    (exactReserve stockKey resvKey (some qty) id (some ttl)).eval r =
      match r.lookup stockKey with
      | none => (r, .ok (.UNKNOWN_SKU, 0))
      | some available =>
        if available < qty then (r, .ok (.INSUFFICIENT_STOCK, available))
        else ((r.incrBy stockKey (-qty)).setEx resvKey qty ttl.toNat, .ok (.OK, available - qty)) := by
  have hq' : ¬ ((qty : Rat) ≤ 0) := by exact_mod_cast not_le.mpr hq
  simp only [exactReserve, hq', if_false, Script.eval_bind, Script.eval_GET]
  cases hl : r.lookup stockKey with
  | none => simp
  | some available =>
    have hlt : ((available : Rat) < (qty : Rat)) ↔ available < qty := by exact_mod_cast Iff.rfl
    by_cases h : available < qty
    · simp [hlt, h]
    · simp only [hlt, h, if_false, Script.eval_bind, Script.eval_DECRBY, Script.eval_SETEX _ _ ht,
        Script.eval_pure, ← Int.cast_sub, Script.truncate_intCast]

/-- `release.lua` in mode `RELEASE` moves a live reservation back to the stock key. -/
theorem exactRelease_eval_release (r : Redis) (stockKey resvKey : String) :
    (exactRelease stockKey resvKey "RELEASE").eval r =
      match r.lookup resvKey with
      | none => (r, .ok (.ALREADY_RESOLVED, 0))
      | some qty => ((r.del resvKey).incrBy stockKey qty, .ok (.RELEASED, qty)) := by
  simp only [exactRelease, Script.eval_bind, Script.eval_GET]
  cases r.lookup resvKey with
  | none => rfl
  | some qty =>
    simp only [Script.eval_bind, Script.eval_DEL, if_true, Script.eval_INCRBY, Script.eval_pure]

/-- `release.lua` in mode `COMMIT` drops a live reservation. -/
theorem exactRelease_eval_commit (r : Redis) (stockKey resvKey : String) :
    (exactRelease stockKey resvKey "COMMIT").eval r =
      match r.lookup resvKey with
      | none => (r, .ok (.ALREADY_RESOLVED, 0))
      | some qty => (r.del resvKey, .ok (.COMMITTED, qty)) := by
  have hne : ¬ "COMMIT" = "RELEASE" := by decide
  simp only [exactRelease, Script.eval_bind, Script.eval_GET]
  cases r.lookup resvKey with
  | none => rfl
  | some qty =>
    simp only [Script.eval_bind, Script.eval_DEL, hne, if_false, if_true, Script.eval_pure]

end SupplyChain
