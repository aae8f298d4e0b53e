import SupplyChain.Inventory.InMemoryRedis
import SupplyChain.Inventory.Proofs.RedisProofs

/-!
# Proofs: the in-process client and the server hold the same live keys

Both are read as one thing, a map from keys to the live text with its deadline. Each command of either
side is described by what it does to that map, and a simulation relation equates the two maps.
-/

namespace SupplyChain

open Decimal (number number_toString)

/-- A text with its deadline has not reached it. -/
def alive (now : Nat) (e : String × Option Int) : Bool :=
  match e.2 with
  | none => true
  | some exp => (now : Int) < exp

@[simp] theorem alive_none (now : Nat) (text : String) : alive now (text, none) = true := rfl

@[simp] theorem alive_some (now : Nat) (text : String) (exp : Int) :
    alive now (text, some exp) = decide ((now : Int) < exp) := rfl

/-- A live entry stays live until the clock has passed its deadline. -/
theorem alive_of_le {now later : Nat} (h : now ≤ later) {e : String × Option Int}
    (hlate : alive later e = true) : alive now e = true := by
  rcases e with ⟨text, _ | exp⟩
  · rfl
  · simp only [alive_some, decide_eq_true_eq] at hlate ⊢
    omega

theorem filter_alive_of_le {now later : Nat} (h : now ≤ later) (o : Option (String × Option Int)) :
    (o.filter (alive now)).filter (alive later) = o.filter (alive later) := by
  cases o with
  | none => rfl
  | some e =>
    cases hlate : alive later e with
    | true => simp [Option.filter_some, hlate, alive_of_le h hlate]
    | false =>
      cases hnow : alive now e <;> simp [Option.filter_some, hnow, hlate]

/-! ## The server -/

/-- What a key of the stand-in has for an entry. -/
def Entry.text (e : Entry) : String × Option Int := (toString e.value, e.expireAt.map Int.ofNat)

theorem alive_text (now : Nat) (e : Entry) : alive now e.text = e.live now := by
  rcases e with ⟨v, _ | exp⟩
  · rfl
  · simp [Entry.text, alive, Entry.live]

namespace Redis

/-- The live text at a key, with its deadline. -/
def liveText (r : Redis) (key : String) : Option (String × Option Int) :=
  ((r.entries key).map Entry.text).filter (alive r.now)

variable {r : Redis} {key x : String}

theorem liveText_eq : r.liveText key =
    ((r.entries key).filter fun e => e.live r.now).map Entry.text := by
  cases h : r.entries key with
  | none => simp [liveText, h]
  | some e => cases hl : e.live r.now <;> simp [liveText, h, Option.filter_some, alive_text, hl]

theorem lookup_eq : r.lookup key = (r.liveText key).map fun e => number e.1 := by
  rw [lookup, liveText_eq, Option.map_map]
  congr 1
  funext e
  exact (number_toString e.value).symm

theorem value_eq : (r.lookup key).map toString = (r.liveText key).map Prod.fst := by
  rw [lookup, liveText_eq, Option.map_map, Option.map_map]
  rfl

theorem liveText_put (e : Option Entry) : (r.put key e).liveText x =
    if x = key then (e.map Entry.text).filter (alive r.now) else r.liveText x := by
  by_cases h : x = key <;> simp [liveText, put, h]

theorem liveText_set (v : Int) : (r.set key v).liveText x =
    if x = key then some (toString v, none) else r.liveText x := by
  simp [set, liveText_put, Entry.text, Option.filter_some]

theorem liveText_setEx (v : Int) {seconds : Nat} (h : 0 < seconds) :
    (r.setEx key v seconds).liveText x =
      if x = key then some (toString v, some ((r.now : Int) + seconds * 1000)) else r.liveText x := by
  have hdeadline : decide ((r.now : Int) < (r.now : Int) + seconds * 1000) = true := by
    rw [decide_eq_true_eq]
    omega
  have hcast : Int.ofNat (r.now + 1000 * seconds) = (r.now : Int) + seconds * 1000 := by
    simp [Nat.mul_comm]
  simp only [setEx, liveText_put, Option.map_some, Entry.text, Option.filter_some, hcast, alive_some,
    hdeadline, if_true]

theorem liveText_del : (r.del key).liveText x = if x = key then none else r.liveText x := by
  simp [del, liveText_put]

theorem liveText_incrBy (n : Int) : (r.incrBy key n).liveText x =
    if x = key then some (toString ((r.lookup key).getD 0 + n), (r.liveText key).bind Prod.snd)
    else r.liveText x := by
  unfold incrBy
  cases he : (r.entries key).filter fun e => e.live r.now with
  | none =>
    have hlookup : r.lookup key = none := by simp [lookup, he]
    have htext : r.liveText key = none := by simp [liveText_eq, he]
    simp [liveText_put, hlookup, htext, Entry.text, Option.filter_some]
  | some e =>
    have hlookup : r.lookup key = some e.value := by simp [lookup, he]
    have htext : r.liveText key = some (Entry.text e) := by simp [liveText_eq, he]
    have hlive : ({ e with value := e.value + n } : Entry).live r.now = true :=
      (Option.filter_eq_some_iff.mp he).2
    simp [liveText_put, hlookup, htext, Option.filter_some, alive_text, hlive]
    simp [Entry.text]

theorem liveText_elapse (ms : Nat) :
    (r.elapse ms).liveText key = (r.liveText key).filter (alive (r.now + ms)) := by
  rw [liveText, liveText, filter_alive_of_le (Nat.le_add_right ..)]
  rfl

end Redis

/-! ### The operations over the server are those of `InventoryService` -/

theorem server_setStock (r : Redis) (w : WarehouseId) (sku : Sku) (qty : Int) :
    RedisLike.server.setStock r w sku qty = InventoryService.setStock r w sku qty := by
  simp [RedisLike.setStock, RedisLike.server, InventoryService.setStock]

theorem server_getAvailable (r : Redis) (w : WarehouseId) (sku : Sku) :
    RedisLike.server.getAvailable r w sku = (r, InventoryService.getAvailable r w sku) := by
  simp only [RedisLike.getAvailable, RedisLike.server, InventoryService.getAvailable]
  cases r.lookup (InventoryService.stockKey w sku) with
  | none => rfl
  | some n => simp

theorem server_reserve (r : Redis) (w : WarehouseId) (sku : Sku) (qty ttl : Int)
    (id : ReservationId) :
    RedisLike.server.reserve r w sku qty ttl id = InventoryService.reserve r w sku qty ttl id := by
  by_cases hq : qty ≤ 0
  · simp only [RedisLike.reserve, InventoryService.reserve, hq, if_true]
  · simp only [RedisLike.reserve, InventoryService.reserve, RedisLike.server, hq, if_false]
    rcases (exactReserve _ _ _ _ _).eval r with ⟨r', e | ⟨_ | _ | _, value⟩⟩ <;> rfl

theorem server_resolve (r : Redis) (w : WarehouseId) (sku : Sku) (id : ReservationId)
    (mode : String) :
    RedisLike.server.resolve r w sku id mode = InventoryService.resolve r w sku id mode := by
  simp only [RedisLike.resolve, InventoryService.resolve, RedisLike.server]
  rcases (exactRelease _ _ _).eval r with ⟨r', e | ⟨status, value⟩⟩ <;> rfl

/-! ## The client -/

namespace InMemoryRedisClient

/-- The live text at a key, with its deadline. -/
def liveText (c : InMemoryRedisClient) (key : String) : Option (String × Option Int) :=
  ((c.store key).map fun text => (text, c.expiresAt key)).filter (alive c.now)

/-- No deadline is kept for a key without a text. -/
def Tidy (c : InMemoryRedisClient) : Prop := ∀ key, c.store key = none → c.expiresAt key = none

variable {c : InMemoryRedisClient} {key x : String}

theorem store_of_liveText {text : String} {exp : Option Int}
    (h : c.liveText key = some (text, exp)) : c.store key = some text ∧ c.expiresAt key = exp := by
  obtain ⟨htext, -⟩ := Option.filter_eq_some_iff.mp h
  cases hstore : c.store key with
  | none => simp [hstore] at htext
  | some t => simpa [hstore] using htext

theorem storedNumber_of_liveText {text : String} {exp : Option Int}
    (h : c.liveText key = some (text, exp)) : c.storedNumber key = number text := by
  rw [storedNumber, (store_of_liveText h).1, Option.getD_some]

theorem liveText_delete :
    ((c.storeDelete key).expiresAtDelete key).liveText x =
      if x = key then none else c.liveText x := by
  by_cases h : x = key <;> simp [liveText, storeDelete, expiresAtDelete, h]

theorem liveText_set (v : String) :
    (c.set key v).liveText x = if x = key then some (v, none) else c.liveText x := by
  by_cases h : x = key <;>
    simp [liveText, set, storeSet, expiresAtDelete, h, Option.filter_some]

/-- A write that leaves the deadline of the key alone, a deadline that is not reached. -/
theorem liveText_storeSet (v : String) {exp : Option Int} (hexp : c.expiresAt key = exp)
    (halive : alive c.now (v, exp) = true) :
    (c.storeSet key v).liveText x = if x = key then some (v, exp) else c.liveText x := by
  by_cases h : x = key
  · simp [liveText, storeSet, h, hexp, Option.filter_some, halive]
  · simp [liveText, storeSet, h]

theorem liveText_setEx (v : String) {exp : Int} (h : (c.now : Int) < exp) :
    ((c.storeSet key v).expiresAtSet key exp).liveText x =
      if x = key then some (v, some exp) else c.liveText x := by
  by_cases hx : x = key
  · simp [liveText, storeSet, expiresAtSet, hx, Option.filter_some, h]
  · simp [liveText, storeSet, expiresAtSet, hx]

theorem liveText_elapse (ms : Nat) :
    (c.elapse ms).liveText key = (c.liveText key).filter (alive (c.now + ms)) := by
  rw [liveText, liveText, filter_alive_of_le (Nat.le_add_right ..)]
  rfl

/-! ### The maps stay tidy -/

theorem Tidy.storeSet (h : c.Tidy) (key v : String) : (c.storeSet key v).Tidy := by
  intro x hx
  by_cases hk : x = key
  · simp [InMemoryRedisClient.storeSet, hk] at hx
  · exact h x (by simpa [InMemoryRedisClient.storeSet, hk] using hx)

theorem Tidy.delete (h : c.Tidy) (key : String) :
    ((c.storeDelete key).expiresAtDelete key).Tidy := by
  intro x hx
  by_cases hk : x = key
  · simp [expiresAtDelete, hk]
  · simp only [expiresAtDelete, storeDelete, hk, if_false] at hx ⊢
    exact h x hx

theorem Tidy.set (h : c.Tidy) (key v : String) : (c.set key v).Tidy := by
  intro x hx
  by_cases hk : x = key
  · simp [InMemoryRedisClient.set, expiresAtDelete, hk]
  · have hstore := h.storeSet key v x hx
    simpa [InMemoryRedisClient.set, expiresAtDelete, hk] using hstore

theorem Tidy.setEx (h : c.Tidy) (key v : String) (exp : Int) :
    ((c.storeSet key v).expiresAtSet key exp).Tidy := by
  intro x hx
  by_cases hk : x = key
  · simp [InMemoryRedisClient.storeSet, expiresAtSet, hk] at hx
  · simpa [expiresAtSet, hk] using h.storeSet key v x hx

/-! ### The lazy sweep -/

/-- Asking whether a key is live does not change what is live. -/
theorem isLive_spec (c : InMemoryRedisClient) (key : String) :
    (c.isLive key).2 = (c.liveText key).isSome ∧
      (c.isLive key).1.liveText = c.liveText ∧ (c.isLive key).1.now = c.now := by
  unfold isLive
  cases hexp : c.expiresAt key with
  | none => cases hstore : c.store key <;> simp [liveText, hstore, hexp, Option.filter_some]
  | some exp =>
    by_cases hpast : exp ≤ c.now
    · have hgone : c.liveText key = none := by
        cases hstore : c.store key <;>
          simp [liveText, hstore, hexp, Option.filter_some, not_lt.mpr hpast]
      simp only [hpast, if_true, hgone, Option.isSome_none, true_and]
      refine ⟨funext fun x => ?_, rfl⟩
      rw [liveText_delete]
      by_cases hx : x = key <;> simp [hx, hgone]
    · cases hstore : c.store key <;>
        simp [liveText, hstore, hexp, hpast, Option.filter_some, not_le.mp hpast]

theorem isLive_of_some {e : String × Option Int} (h : c.liveText key = some e) :
    c.isLive key = (c, true) := by
  obtain ⟨-, halive⟩ := Option.filter_eq_some_iff.mp h
  obtain ⟨text, exp⟩ := e
  obtain ⟨hstore, hexp⟩ := store_of_liveText h
  unfold isLive
  cases exp with
  | none => simp [hexp, hstore]
  | some exp =>
    have hfuture : ¬ exp ≤ c.now := by simpa using halive
    simp [hexp, hstore, hfuture]

theorem Tidy.isLive (h : c.Tidy) (key : String) : (c.isLive key).1.Tidy := by
  unfold InMemoryRedisClient.isLive
  split
  · split
    · exact h.delete key
    · exact h
  · exact h

/-- A key found dead has neither a text nor a deadline afterwards. -/
theorem expiresAt_isLive_of_none (htidy : c.Tidy) (h : c.liveText key = none) :
    (c.isLive key).1.expiresAt key = none := by
  unfold InMemoryRedisClient.isLive
  cases hexp : c.expiresAt key with
  | none => exact hexp
  | some exp =>
    by_cases hpast : exp ≤ c.now
    · simp [hpast, expiresAtDelete]
    · cases hstore : c.store key with
      | none => exact absurd (htidy key hstore) (by simp [hexp])
      | some text =>
        simp [liveText, hstore, hexp, Option.filter_some, not_le.mp hpast] at h

theorem value_eq : c.value key = (c.liveText key).map Prod.fst := by
  obtain ⟨hlive, htext, -⟩ := isLive_spec c key
  cases h : c.liveText key with
  | none => simp [value, get, hlive, h]
  | some e =>
    obtain ⟨text, exp⟩ := e
    have hstore := (store_of_liveText h).1
    simp [value, get, isLive_of_some h, hstore]

end InMemoryRedisClient

/-! ## The simulation -/

/-- The client holds the live keys of the server. -/
structure Simulates (c : InMemoryRedisClient) (r : Redis) : Prop where
  now : c.now = r.now
  liveText : c.liveText = r.liveText
  tidy : c.Tidy

namespace Simulates

variable {c : InMemoryRedisClient} {r : Redis} {key : String}

theorem lookup_of_none (h : Simulates c r) (hkey : c.liveText key = none) : r.lookup key = none := by
  rw [Redis.lookup_eq, ← h.liveText, hkey]
  rfl

theorem lookup_of_some (h : Simulates c r) {text : String} {exp : Option Int}
    (hkey : c.liveText key = some (text, exp)) : r.lookup key = some (number text) := by
  rw [Redis.lookup_eq, ← h.liveText, hkey]
  rfl

theorem empty (now : Nat) : Simulates (.empty now) ⟨fun _ => none, now⟩ :=
  ⟨rfl, rfl, fun _ _ => rfl⟩

theorem isLive (h : Simulates c r) (key : String) : Simulates (c.isLive key).1 r := by
  obtain ⟨-, htext, hnow⟩ := c.isLive_spec key
  exact ⟨hnow.trans h.now, htext.trans h.liveText, h.tidy.isLive key⟩

theorem set (h : Simulates c r) (key : String) (qty : Int) :
    Simulates (c.set key (toString qty)) (r.set key qty) := by
  refine ⟨h.now, funext fun x => ?_, h.tidy.set key _⟩
  rw [InMemoryRedisClient.liveText_set, Redis.liveText_set, h.liveText]

theorem elapse (h : Simulates c r) (ms : Nat) : Simulates (c.elapse ms) (r.elapse ms) := by
  refine ⟨congrArg (· + ms) h.now, funext fun x => ?_, h.tidy⟩
  rw [InMemoryRedisClient.liveText_elapse, Redis.liveText_elapse, h.liveText, h.now]

theorem delete (h : Simulates c r) (key : String) :
    Simulates ((c.storeDelete key).expiresAtDelete key) (r.del key) := by
  refine ⟨h.now, funext fun x => ?_, h.tidy.delete key⟩
  rw [InMemoryRedisClient.liveText_delete, Redis.liveText_del, h.liveText]

theorem setEx (h : Simulates c r) (key : String) (qty : Int) {ttl : Int} (ht : 0 < ttl) :
    Simulates ((c.storeSet key (toString qty)).expiresAtSet key (c.now + ttl * 1000))
      (r.setEx key qty ttl.toNat) := by
  have hdeadline : (c.now : Int) < c.now + ttl * 1000 := by omega
  have hnat : ((ttl.toNat : Nat) : Int) = ttl := Int.toNat_of_nonneg (by omega)
  refine ⟨h.now, funext fun x => ?_, h.tidy.setEx key _ _⟩
  rw [InMemoryRedisClient.liveText_setEx _ hdeadline, Redis.liveText_setEx _ (by omega), h.liveText,
    hnat, h.now]

/-- A new text for a counter: the client overwrites it, the server changes it by the difference. -/
theorem incrBy (h : Simulates c r) (key : String) (n : Int)
    (hexp : c.expiresAt key = (c.liveText key).bind Prod.snd) :
    Simulates (c.storeSet key (toString ((r.lookup key).getD 0 + n))) (r.incrBy key n) := by
  have halive : alive c.now (toString ((r.lookup key).getD 0 + n), (c.liveText key).bind Prod.snd) =
      true := by
    cases hkey : c.liveText key with
    | none => rfl
    | some e => exact (Option.filter_eq_some_iff.mp hkey).2
  refine ⟨h.now.trans (Redis.now_incrBy n).symm, funext fun x => ?_, h.tidy.storeSet key _⟩
  rw [InMemoryRedisClient.liveText_storeSet _ hexp halive, Redis.liveText_incrBy, h.liveText]

theorem evalReserve (h : Simulates c r) (stockKey resvKey id : String) {qty ttl : Int}
    (hq : 0 < qty) (ht : 0 < ttl) :
    (RedisLike.inMemory.evalReserve c stockKey resvKey qty id ttl).2 =
        (RedisLike.server.evalReserve r stockKey resvKey qty id ttl).2 ∧
      Simulates (RedisLike.inMemory.evalReserve c stockKey resvKey qty id ttl).1
        (RedisLike.server.evalReserve r stockKey resvKey qty id ttl).1 := by
  have hserver : RedisLike.server.evalReserve r stockKey resvKey qty id ttl = _ :=
    exactReserve_eval r stockKey resvKey id hq ht
  have hq' : ¬ qty ≤ 0 := by omega
  simp only [RedisLike.inMemory, InMemoryRedisClient.evalReserve, hq', if_false, hserver]
  cases hstock : c.liveText stockKey with
  | none =>
    have hdead : (c.isLive stockKey).2 = false := by simp [(c.isLive_spec stockKey).1, hstock]
    simp only [hdead, h.lookup_of_none hstock, Bool.not_false, if_true, true_and]
    exact h.isLive stockKey
  | some e =>
    obtain ⟨text, exp⟩ := e
    have hstored := InMemoryRedisClient.storedNumber_of_liveText hstock
    have hexp := (InMemoryRedisClient.store_of_liveText hstock).2
    have hlookup := h.lookup_of_some hstock
    simp only [InMemoryRedisClient.isLive_of_some hstock, hlookup, hstored, Bool.not_true,
      Bool.false_eq_true, if_false]
    by_cases hlt : number text < qty
    · simp only [hlt, if_true, true_and]
      exact h
    · simp only [hlt, if_false, true_and]
      have hremaining : number text - qty = (r.lookup stockKey).getD 0 + -qty := by
        rw [hlookup, Option.getD_some]
        omega
      rw [hremaining]
      exact (h.incrBy stockKey (-qty) (by rw [hexp, hstock]; rfl)).setEx resvKey qty ht

theorem evalRelease (h : Simulates c r) (stockKey resvKey : String) {mode : String}
    (hmode : mode = "RELEASE" ∨ mode = "COMMIT") :
    (RedisLike.inMemory.evalRelease c stockKey resvKey mode).2 =
        (RedisLike.server.evalRelease r stockKey resvKey mode).2 ∧
      Simulates (RedisLike.inMemory.evalRelease c stockKey resvKey mode).1
        (RedisLike.server.evalRelease r stockKey resvKey mode).1 := by
  have hne : ¬ "COMMIT" = "RELEASE" := by decide
  cases hresv : c.liveText resvKey with
  | none =>
    have hdead : (c.isLive resvKey).2 = false := by simp [(c.isLive_spec resvKey).1, hresv]
    have hserver : RedisLike.server.evalRelease r stockKey resvKey mode =
        (r, .ok (.ALREADY_RESOLVED, 0)) := by
      rcases hmode with rfl | rfl
      · simp [RedisLike.server, exactRelease_eval_release, h.lookup_of_none hresv]
      · simp [RedisLike.server, exactRelease_eval_commit, h.lookup_of_none hresv]
    rw [hserver]
    simp only [RedisLike.inMemory, InMemoryRedisClient.evalRelease, hdead, Bool.not_false, if_true,
      true_and]
    exact h.isLive resvKey
  | some e =>
    obtain ⟨text, exp⟩ := e
    have hstored := InMemoryRedisClient.storedNumber_of_liveText hresv
    have hlookup := h.lookup_of_some hresv
    have hdel := h.delete resvKey
    rcases hmode with rfl | rfl
    · simp only [RedisLike.server, exactRelease_eval_release, hlookup, RedisLike.inMemory,
        InMemoryRedisClient.evalRelease, InMemoryRedisClient.isLive_of_some hresv, hstored,
        Bool.not_true, Bool.false_eq_true, if_false, if_true, true_and]
      generalize (c.storeDelete resvKey).expiresAtDelete resvKey = c' at hdel
      cases hstock : c'.liveText stockKey with
      | none =>
        have hlive := hdel.isLive stockKey
        have hdead : (c'.isLive stockKey).2 = false := by
          simp [(c'.isLive_spec stockKey).1, hstock]
        have htext : (c'.isLive stockKey).1.liveText stockKey = none := by
          rw [(c'.isLive_spec stockKey).2.1, hstock]
        have hexp := InMemoryRedisClient.expiresAt_isLive_of_none hdel.tidy hstock
        have hnone := hdel.lookup_of_none hstock
        simp only [hdead, Bool.false_eq_true, if_false]
        have := hlive.incrBy stockKey (number text) (by rw [hexp, htext]; rfl)
        rwa [hnone, Option.getD_none] at this
      | some s =>
        obtain ⟨current, stockExp⟩ := s
        have hstock' := InMemoryRedisClient.storedNumber_of_liveText hstock
        have hexp := (InMemoryRedisClient.store_of_liveText hstock).2
        have hsome := hdel.lookup_of_some hstock
        simp only [InMemoryRedisClient.isLive_of_some hstock, hstock', if_true]
        have := hdel.incrBy stockKey (number text) (by rw [hexp, hstock]; rfl)
        rwa [hsome, Option.getD_some] at this
    · simp only [RedisLike.server, exactRelease_eval_commit, hlookup, RedisLike.inMemory,
        InMemoryRedisClient.evalRelease, InMemoryRedisClient.isLive_of_some hresv, hstored,
        Bool.not_true, Bool.false_eq_true, if_false, if_true, hne, true_and]
      exact hdel

theorem value (h : Simulates c r) (key : String) :
    Deployment.inMemory.value c key = Deployment.server.value r key := by
  simp only [Deployment.inMemory, Deployment.server, InMemoryRedisClient.value_eq, Redis.value_eq,
    h.liveText]

theorem getAvailable (h : Simulates c r) (w : WarehouseId) (sku : Sku) :
    (RedisLike.inMemory.getAvailable c w sku).2 = (RedisLike.server.getAvailable r w sku).2 ∧
      Simulates (RedisLike.inMemory.getAvailable c w sku).1
        (RedisLike.server.getAvailable r w sku).1 := by
  have hlive := h.isLive (InventoryService.stockKey w sku)
  have hvalue : (c.get (InventoryService.stockKey w sku)).2 = _ := h.value _
  have hstate : (c.get (InventoryService.stockKey w sku)).1 =
      (c.isLive (InventoryService.stockKey w sku)).1 := rfl
  simp only [RedisLike.getAvailable, RedisLike.inMemory, RedisLike.server]
  rcases hget : c.get (InventoryService.stockKey w sku) with ⟨c', v⟩
  rw [hget] at hvalue hstate
  subst hvalue hstate
  rw [show Deployment.server.value r _ = (r.lookup _).map toString from rfl]
  cases r.lookup (InventoryService.stockKey w sku) with
  | none => exact ⟨rfl, hlive⟩
  | some n => exact ⟨rfl, hlive⟩

theorem reserve (h : Simulates c r) (w : WarehouseId) (sku : Sku) (qty : Int) {ttl : Int}
    (ht : 0 < ttl) (id : ReservationId) :
    (RedisLike.inMemory.reserve c w sku qty ttl id).2 =
        (RedisLike.server.reserve r w sku qty ttl id).2 ∧
      Simulates (RedisLike.inMemory.reserve c w sku qty ttl id).1
        (RedisLike.server.reserve r w sku qty ttl id).1 := by
  by_cases hq : qty ≤ 0
  · simp only [RedisLike.reserve, hq, if_true, true_and]
    exact h
  · obtain ⟨hreply, hsim⟩ := h.evalReserve (InventoryService.stockKey w sku)
      (InventoryService.reservationKey id) id (not_le.mp hq) ht
    simp only [RedisLike.reserve, hq, if_false]
    generalize RedisLike.inMemory.evalReserve c _ _ _ _ _ = a at hreply hsim
    generalize RedisLike.server.evalReserve r _ _ _ _ _ = b at hreply hsim
    obtain ⟨c', reply⟩ := a
    obtain ⟨r', reply'⟩ := b
    subst hreply
    rcases reply with e | ⟨_ | _ | _, value⟩ <;> exact ⟨rfl, hsim⟩

theorem resolve (h : Simulates c r) (w : WarehouseId) (sku : Sku) (id : ReservationId)
    {mode : String} (hmode : mode = "RELEASE" ∨ mode = "COMMIT") :
    (RedisLike.inMemory.resolve c w sku id mode).2 = (RedisLike.server.resolve r w sku id mode).2 ∧
      Simulates (RedisLike.inMemory.resolve c w sku id mode).1
        (RedisLike.server.resolve r w sku id mode).1 := by
  obtain ⟨hreply, hsim⟩ := h.evalRelease (InventoryService.stockKey w sku)
    (InventoryService.reservationKey id) hmode
  simp only [RedisLike.resolve]
  generalize RedisLike.inMemory.evalRelease c _ _ _ = a at hreply hsim
  generalize RedisLike.server.evalRelease r _ _ _ = b at hreply hsim
  obtain ⟨c', reply⟩ := a
  obtain ⟨r', reply'⟩ := b
  subst hreply
  rcases reply with e | ⟨status, value⟩ <;> exact ⟨rfl, hsim⟩

/-- One call: the same reply, and the live keys agree again. -/
theorem call (h : Simulates c r) {call : InventoryCall} (hcall : call.PositiveTtl) :
    (Deployment.inMemory.call c call).2 = (Deployment.server.call r call).2 ∧
      Simulates (Deployment.inMemory.call c call).1 (Deployment.server.call r call).1 := by
  cases call with
  | setStock w sku qty =>
    have hset := h.set (InventoryService.stockKey w sku) qty
    refine ⟨rfl, ?_⟩
    rw [show Deployment.server.call r (.setStock w sku qty) =
      (RedisLike.server.setStock r w sku qty, .done) from rfl, server_setStock]
    exact hset
  | getAvailable w sku =>
    obtain ⟨hreply, hsim⟩ := h.getAvailable w sku
    exact ⟨congrArg InventoryReply.available hreply, hsim⟩
  | reserve w sku qty ttl id =>
    obtain ⟨hreply, hsim⟩ := h.reserve w sku qty hcall.2 id
    exact ⟨congrArg InventoryReply.reserved hreply, hsim⟩
  | release w sku id =>
    obtain ⟨hreply, hsim⟩ := h.resolve w sku id (Or.inl rfl)
    exact ⟨congrArg InventoryReply.resolved hreply, hsim⟩
  | commit w sku id =>
    obtain ⟨hreply, hsim⟩ := h.resolve w sku id (Or.inr rfl)
    exact ⟨congrArg InventoryReply.resolved hreply, hsim⟩
  | elapse ms => exact ⟨rfl, h.elapse ms⟩

end Simulates

end SupplyChain
