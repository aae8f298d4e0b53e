import SupplyChain.Inventory.Proofs.InventoryServiceProofs
import SupplyChain.Inventory.Proofs.ScriptServerProofs

/-!
# Proofs: when the in-process client is what the server is

The client simulates the exact model, and in range so does the server with the scripts. They part where a deadline
is refused: the script has taken the units then, and the client makes the reservation.
-/

namespace SupplyChain

open InventoryService

variable {lua : LuaNumbers} {ofInt : Int → lua.Num} {c : InMemoryRedisClient} {r : Redis}
  {call : InventoryCall} {calls : List InventoryCall}

/-! ## One call -/

/-- A reservation that the exact counter covers has a deadline that is not refused. -/
def Redis.TimelyCall (r : Redis) : InventoryCall → Prop
  | .reserve w sku qty ttlSeconds _ => 0 < qty → ∀ v, r.lookup (stockKey w sku) = some v → qty ≤ v →
      r.now + 1000 * ttlSeconds < 2 ^ 63
  | _ => True

theorem scripts_call (hexact : lua.Exact ofInt) (hvalues : r.Ranged) (hcall : call.PositiveTtl)
    (htimely : r.TimelyCall call) :
    (Deployment.scripts lua).call (.ofRedis r) call = (Deployment.server.call r call).map .ofRedis id := by
  cases call with
  | setStock w s qty =>
    have hset : (Deployment.scripts lua).redis.setStock (.ofRedis r) w s qty =
        .ofRedis (RedisLike.server.setStock r w s qty) := by
      rw [server_setStock]
      exact scripts_setStock qty
    exact Prod.ext hset rfl
  | getAvailable w s =>
    show ((RedisLike.scripts lua).getAvailable _ w s).map _ _ =
      ((RedisLike.server.getAvailable r w s).map _ _).map _ _
    rw [scripts_getAvailable, server_getAvailable]
    rfl
  | reserve w s qty ttl resv =>
    show ((RedisLike.scripts lua).reserve _ w s qty ttl resv).map _ _ =
      ((RedisLike.server.reserve r w s qty ttl resv).map _ _).map _ _
    rw [server_reserve, scripts_reserve hexact (hvalues _) hcall.1 hcall.2 htimely]
    rfl
  | release w s resv =>
    show ((RedisLike.scripts lua).resolve _ w s resv "RELEASE").map _ _ =
      ((RedisLike.server.resolve r w s resv "RELEASE").map _ _).map _ _
    rw [scripts_resolve hexact (hvalues _) (hvalues _), server_resolve]
    rfl
  | commit w s resv =>
    show ((RedisLike.scripts lua).resolve _ w s resv "COMMIT").map _ _ =
      ((RedisLike.server.resolve r w s resv "COMMIT").map _ _).map _ _
    rw [scripts_resolve hexact (hvalues _) (hvalues _), server_resolve]
    rfl
  | elapse ms => exact Prod.ext (Keyspace.elapse_ofRedis ms) rfl

/-- Where the exact server accepts a reservation with a late deadline, the script replies an error. -/
theorem scripts_call_late (hexact : lua.Exact ofInt) (hvalues : r.Ranged) (hcall : call.PositiveTtl)
    (hlate : ¬ r.TimelyCall call) :
    ((Deployment.scripts lua).call (.ofRedis r) call).2 ≠ (Deployment.server.call r call).2 := by
  cases call with
  | reserve w s qty ttl resv =>
    simp only [Redis.TimelyCall, not_forall, Int.not_lt] at hlate
    obtain ⟨hqty, v, hlookup, hle, hlate⟩ := hlate
    obtain ⟨e, hfail⟩ : ∃ e, (RedisLike.scripts lua).reserve (.ofRedis r) w s qty ttl resv =
        (.ofRedis (r.incrBy (stockKey w s) (-qty)), .error e) :=
      scripts_reserve_late hexact (hvalues _) hqty hcall.1 hcall.2 hlookup hle hlate
    have hunits : units r (itemName w s) = v := by
      rw [units, ← stockKey_eq, hlookup]
      rfl
    show (((RedisLike.scripts lua).reserve _ w s qty ttl resv).map _ _).2 ≠
      ((RedisLike.server.reserve r w s qty ttl resv).map _ _).2
    rw [hfail, server_reserve]
    rcases reserve_cases r w s qty hcall.2 resv with ⟨_, _, -, hwhy⟩ | ⟨-, -, hok⟩
    · omega
    · rw [hok]
      exact fun heq => by cases heq
  | setStock _ _ _ | getAvailable _ _ | release _ _ _ | commit _ _ _ | elapse _ => exact absurd trivial hlate

/-! ## Sequences of calls -/

namespace Simulates

/-- What a reader of the client finds at a key. -/
theorem value_lookup (h : Simulates c r) (key : String) : c.value key = (r.lookup key).map toString := h.value key

theorem ranged_iff (h : Simulates c r) : c.Ranged ↔ r.Ranged := by
  constructor
  · intro hc key v hv
    have hvalue := hc key (toString v) (by rw [h.value_lookup, hv]; rfl)
    rwa [Decimal.number_toString] at hvalue
  · intro hr key text htext
    rw [h.value_lookup] at htext
    obtain ⟨v, hv, rfl⟩ := Option.map_eq_some_iff.mp htext
    rw [Decimal.number_toString]
    exact hr key v hv

theorem timelyCall_iff (h : Simulates c r) : c.TimelyCall call ↔ r.TimelyCall call := by
  cases call with
  | reserve w s qty ttl resv =>
    have htext : (∀ text, c.value (stockKey w s) = some text → qty ≤ Decimal.number text →
        c.now + 1000 * ttl < 2 ^ 63) ↔
        ∀ v, r.lookup (stockKey w s) = some v → qty ≤ v → r.now + 1000 * ttl < 2 ^ 63 := by
      rw [h.value_lookup, h.now]
      cases r.lookup (stockKey w s) with
      | none => exact iff_of_true (fun _ hnone => by cases hnone) fun _ hnone => by cases hnone
      | some v => simp
    exact imp_congr_right fun _ => htext
  | setStock _ _ _ | getAvailable _ _ | release _ _ _ | commit _ _ _ | elapse _ => exact Iff.rfl

/-- The values that a reader finds are those of the scripts. -/
theorem scripts_value (h : Simulates c r) :
    Deployment.inMemory.value c = (Deployment.scripts lua).value (.ofRedis r) :=
  funext fun key => (h.value key).trans (scripts_get key).symm

/-- The traces agree as long as no deadline is refused, and no longer. -/
theorem trace_iff (hexact : lua.Exact ofInt) (h : Simulates c r) (hcalls : c.Representable calls) :
    Deployment.inMemory.trace c calls = (Deployment.scripts lua).trace (.ofRedis r) calls ↔ c.Timely calls := by
  induction calls generalizing c r with
  | nil => exact iff_of_true rfl trivial
  | cons call calls ih =>
    obtain ⟨hranged, hcall, hrest⟩ := hcalls
    have hvalues := h.ranged_iff.mp hranged
    obtain ⟨hreply, hsim⟩ := h.call hcall
    rw [Deployment.trace, Deployment.trace, InMemoryRedisClient.Timely, List.cons_eq_cons, Prod.mk.injEq]
    by_cases htimely : c.TimelyCall call
    · have hscripts := scripts_call hexact hvalues hcall (h.timelyCall_iff.mp htimely)
      have hvalue : Deployment.inMemory.value (Deployment.inMemory.call c call).1 =
          (Deployment.scripts lua).value (.ofRedis (Deployment.server.call r call).1) := hsim.scripts_value
      rw [hscripts]
      simp only [Prod.map, id, hreply, hvalue, true_and, htimely, and_self]
      exact ih hsim hrest
    · have hne := scripts_call_late hexact hvalues hcall fun hr => htimely (h.timelyCall_iff.mpr hr)
      refine iff_of_false (fun heq => hne ?_) fun hboth => htimely hboth.1
      rw [← heq.1.1, hreply]

end Simulates

/-! ## How fast the numbers grow -/

/-- No number is larger than a bound. -/
def Redis.Below (r : Redis) (b : Nat) : Prop := ∀ key v, r.lookup key = some v → v.natAbs ≤ b

/-- A bound after a call: a release may add two numbers, and the other calls only set one or take from one. -/
def InventoryCall.bound (b : Nat) : InventoryCall → Nat
  | .setStock _ _ qty => max b qty.natAbs
  | .release _ _ _ => 2 * b
  | _ => b

theorem InventoryCall.le_bound (b : Nat) : b ≤ call.bound b := by
  cases call <;> simp only [bound] <;> omega

namespace Redis.Below

variable {b b' : Nat} {key : String}

theorem mono (h : r.Below b) (hle : b ≤ b') : r.Below b' := fun key v hv => (h key v hv).trans hle

theorem set {v : Int} (h : r.Below b) (hv : v.natAbs ≤ b) : (r.set key v).Below b := by
  intro x v' hx
  rw [lookup_set] at hx
  split at hx
  · rw [← Option.some.inj hx]
    exact hv
  · exact h x v' hx

theorem setEx {v : Int} {seconds : Nat} (h : r.Below b) (hv : v.natAbs ≤ b) (hpos : 0 < seconds) :
    (r.setEx key v seconds).Below b := by
  intro x v' hx
  rw [lookup_setEx v hpos] at hx
  split at hx
  · rw [← Option.some.inj hx]
    exact hv
  · exact h x v' hx

theorem incrBy {n : Int} (h : r.Below b) (hn : ((r.lookup key).getD 0 + n).natAbs ≤ b) :
    (r.incrBy key n).Below b := by
  intro x v' hx
  rw [lookup_incrBy] at hx
  split at hx
  · rw [← Option.some.inj hx]
    exact hn
  · exact h x v' hx

theorem del (h : r.Below b) : (r.del key).Below b := by
  intro x v' hx
  rw [lookup_del] at hx
  split at hx
  · cases hx
  · exact h x v' hx

theorem elapse (h : r.Below b) (ms : Nat) : (r.elapse ms).Below b := by
  intro x v' hx
  obtain ⟨e, he, rfl⟩ := Option.map_eq_some_iff.mp hx
  obtain ⟨hentry, hlive⟩ := Option.filter_eq_some_iff.mp he
  refine h x e.value (Option.map_eq_some_iff.mpr ⟨e, Option.filter_eq_some_iff.mpr ⟨hentry, ?_⟩, rfl⟩)
  obtain ⟨v, _ | deadline⟩ := e
  · rfl
  · simp only [Entry.live_some, decide_eq_true_eq] at hlive ⊢
    exact Nat.lt_of_le_of_lt (Nat.le_add_right r.now ms) hlive

theorem getD (h : r.Below b) (key : String) : ((r.lookup key).getD 0).natAbs ≤ b := by
  cases hv : r.lookup key with
  | none => exact Nat.zero_le b
  | some v => exact h key v hv

theorem server_call (h : r.Below b) (hcall : call.PositiveTtl) :
    (Deployment.server.call r call).1.Below (call.bound b) := by
  cases call with
  | setStock w s qty =>
    show (RedisLike.server.setStock r w s qty).Below (max b qty.natAbs)
    rw [server_setStock]
    exact (h.mono (Nat.le_max_left ..)).set (Nat.le_max_right ..)
  | getAvailable w s =>
    show (RedisLike.server.getAvailable r w s).1.Below b
    rw [server_getAvailable]
    exact h
  | reserve w s qty ttl resv =>
    show (RedisLike.server.reserve r w s qty ttl resv).1.Below b
    rw [server_reserve]
    rcases reserve_cases r w s qty hcall.2 resv with ⟨_, _, hrejected, -⟩ | ⟨hqty, hle, hok⟩
    · rw [hrejected]
      exact h
    · rw [hok]
      have hlevel := h.getD (stockKey w s)
      rw [units, ← stockKey_eq] at hle
      have httl := hcall.2
      exact (h.incrBy (by omega)).setEx (by omega) (by omega)
  | release w s resv =>
    show (RedisLike.server.resolve r w s resv "RELEASE").1.Below (2 * b)
    rw [server_resolve]
    show (release r w s resv).1.Below (2 * b)
    cases hheld : held r resv with
    | none =>
      rw [release_of_none hheld]
      exact h.mono (by omega)
    | some q =>
      have hq := h _ q hheld
      have hdel : (r.del (reservationKey resv)).Below b := h.del
      have hlevel := hdel.getD (stockKey w s)
      rw [release_of_some hheld]
      exact (h.mono (by omega)).del.incrBy (by omega)
  | commit w s resv =>
    show (RedisLike.server.resolve r w s resv "COMMIT").1.Below b
    rw [server_resolve]
    show (commit r w s resv).1.Below b
    cases hheld : held r resv with
    | none =>
      rw [commit_of_none hheld]
      exact h
    | some q =>
      rw [commit_of_some hheld]
      exact h.del
  | elapse ms => exact h.elapse ms

theorem le_foldl (b : Nat) : b ≤ calls.foldl (fun b call => InventoryCall.bound b call) b := by
  induction calls generalizing b with
  | nil => exact Nat.le_refl b
  | cons call calls ih => exact (InventoryCall.le_bound b).trans (ih _)

theorem representable (hsim : Simulates c r) (h : r.Below b) (hcalls : ∀ call ∈ calls, call.PositiveTtl)
    (hbound : calls.foldl (fun b call => InventoryCall.bound b call) b < 2 ^ 53) : c.Representable calls := by
  induction calls generalizing c r b with
  | nil => exact hsim.ranged_iff.mpr fun key v hv => Nat.lt_of_le_of_lt (h key v hv) hbound
  | cons call calls ih =>
    rw [List.forall_mem_cons] at hcalls
    refine ⟨hsim.ranged_iff.mpr fun key v hv => ?_, hcalls.1, ?_⟩
    · exact Nat.lt_of_le_of_lt ((h key v hv).trans (le_foldl b)) hbound
    · exact ih (hsim.call hcalls.1).2 (h.server_call hcalls.1) hcalls.2 hbound

end Redis.Below

/-- From an empty store, the in-process client and the server with the scripts answer a sequence of calls in the
same way, and hold the same live keys and values after every call, exactly if no reservation that the stock covers
has a deadline of more than 63 bits. -/
theorem inMemory_simulates_server_iff (hexact : lua.Exact ofInt) (now : Nat) (calls : List InventoryCall)
    (h : (InMemoryRedisClient.empty now).Representable calls) :
    Deployment.inMemory.trace (.empty now) calls =
        (Deployment.scripts lua).trace ⟨fun _ => none, now⟩ calls ↔
      (InMemoryRedisClient.empty now).Timely calls :=
  (Simulates.empty now).trace_iff hexact h

theorem representable_empty (now : Nat) (hcalls : ∀ call ∈ calls, call.PositiveTtl)
    (hbound : calls.foldl (fun b call => InventoryCall.bound b call) 0 < 2 ^ 53) :
    (InMemoryRedisClient.empty now).Representable calls :=
  Redis.Below.representable (Simulates.empty now) (fun _ _ hnone => by cases hnone) hcalls hbound

/-- A reservation that runs out before it is released. -/
def forgotten : List InventoryCall :=
  [.setStock "w" "s" 5, .reserve "w" "s" 2 1 "a", .elapse 1000, .release "w" "s" "a", .getAvailable "w" "s"]

theorem forgotten_simulated : Deployment.inMemory.trace (.empty 0) forgotten =
    (Deployment.scripts .doubles).trace ⟨fun _ => none, 0⟩ forgotten := by
  have hpositive : ∀ call ∈ forgotten, call.PositiveTtl := by decide +kernel
  refine (inMemory_simulates_server_iff doubles_exact 0 forgotten
    (representable_empty 0 hpositive (by decide))).mpr ?_
  have hdeadline : (0 : Int) + 1000 * 1 < 2 ^ 63 := by decide
  exact ⟨trivial, fun _ _ _ _ => hdeadline, trivial, trivial, trivial, trivial⟩

/-- A time to live of three hundred million years. -/
def aeon : List InventoryCall := [.setStock "w" "s" 5, .reserve "w" "s" 2 (10 ^ 16) "a"]

/-- The script takes two units and replies an error, and the client accepts the reservation. -/
theorem aeon_not_simulated : ¬ ∀ (now : Nat) (calls : List InventoryCall),
    (InMemoryRedisClient.empty now).Representable calls →
      Deployment.inMemory.trace (.empty now) calls =
        (Deployment.scripts .doubles).trace ⟨fun _ => none, now⟩ calls := by
  intro hall
  have hpositive : ∀ call ∈ aeon, call.PositiveTtl := by decide +kernel
  have hrepresentable := representable_empty 0 hpositive (by decide)
  obtain ⟨-, htimely, -⟩ :=
    (inMemory_simulates_server_iff doubles_exact 0 aeon hrepresentable).mp (hall 0 aeon hrepresentable)
  have hstock : (Deployment.inMemory.call (.empty 0) (.setStock "w" "s" 5)).1.value (stockKey "w" "s") =
      some "5" := by decide
  exact absurd (htimely (by decide) "5" hstock (by decide)) (by decide)

end SupplyChain
