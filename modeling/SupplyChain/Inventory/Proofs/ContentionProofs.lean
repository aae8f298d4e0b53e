import SupplyChain.Collections.Proofs.GreedyProofs
import SupplyChain.Inventory.Contention
import SupplyChain.Inventory.Proofs.ScriptServerProofs
import SupplyChain.Inventory.Proofs.InventoryServiceProofs

/-!
# Proofs: a contended counter serves whoever fits

The calls of all instances together serve their requests greedily from the counter.
-/

namespace SupplyChain

open InventoryService Collections

variable {lua : LuaNumbers} {ofInt : Int → lua.Num} {k : Keyspace} {key : String} {level : Int}
  {w : WarehouseId} {s : Sku} {qty ttl : Int} {resv : ReservationId}

/-! ## One reservation -/

theorem scripts_reserve_refused (hexact : lua.Exact ofInt) (h : Stocked k (stockKey w s) level)
    (hrange : level.natAbs < 2 ^ 53) (hqty : 0 < qty) (hshort : level < qty) :
    ∃ reason remaining, (RedisLike.scripts lua).reserve k w s qty ttl resv =
      (k, .ok (.rejected reason remaining)) := by
  rcases h with hstock | ⟨hnone, rfl⟩
  · have heval : (RedisLike.scripts lua).evalReserve k (stockKey w s) (reservationKey resv) qty resv ttl = _ :=
      LuaScript.reserve_of_short resv ttl hstock hrange hexact hqty hshort
    refine ⟨.INSUFFICIENT_STOCK, some level, ?_⟩
    rw [RedisLike.reserve, if_neg (Int.not_le.mpr hqty), heval]
  · have heval : (RedisLike.scripts lua).evalReserve k (stockKey w s) (reservationKey resv) qty resv ttl = _ :=
      LuaScript.reserve_of_missing resv ttl hexact hqty hnone
    refine ⟨.UNKNOWN_SKU, some 0, ?_⟩
    rw [RedisLike.reserve, if_neg (Int.not_le.mpr hqty), heval]

theorem scripts_reserve_served (hexact : lua.Exact ofInt) (h : Stocked k (stockKey w s) level)
    (hrange : level.natAbs < 2 ^ 53) (hqty : 0 < qty) (hfit : qty ≤ level)
    (htimely : (Op.reserve w s qty ttl resv).Timely k.now) :
    ∃ k', (RedisLike.scripts lua).reserve k w s qty ttl resv = (k', .ok (.accepted resv (level - qty))) ∧
      Stocked k' (stockKey w s) (level - qty) ∧ k'.now = k.now := by
  have hstock : k.entries (stockKey w s) = some ⟨.text (toString level), none⟩ := by
    refine h.resolve_right fun hmissing => ?_
    have hzero := hmissing.2
    omega
  obtain ⟨hdouble, hpos, hfits⟩ := htimely
  have heval : (RedisLike.scripts lua).evalReserve k (stockKey w s) (reservationKey resv) qty resv ttl = _ :=
    LuaScript.reserve_of_fits resv ttl hstock hrange hexact hqty hfit hdouble hpos hfits
  rw [RedisLike.reserve, if_neg (Int.not_le.mpr hqty), heval]
  refine ⟨_, rfl, Or.inl ?_, rfl⟩
  simp [Keyspace.put, stockKey_ne_reservationKey]

/-- A counter without a deadline does not change with time. -/
theorem Stocked.elapse (h : Stocked k key level) (ms : Nat) : Stocked (k.elapse ms) key level := by
  rcases h with hstock | ⟨hnone, hzero⟩
  · exact Or.inl (by simp [Keyspace.elapse, hstock, Option.filter_some])
  · exact Or.inr ⟨by simp [Keyspace.elapse, hnone], hzero⟩

theorem Stocked.available (h : Stocked k (stockKey w s) level) :
    (Deployment.scripts lua).available k w s = level := by
  have hget : (RedisLike.scripts lua).get k (stockKey w s) = (k, (k.get (stockKey w s)).toOption.join) := rfl
  show ((RedisLike.scripts lua).getAvailable k w s).2 = level
  rw [RedisLike.getAvailable, hget, Keyspace.get]
  rcases h with hstock | ⟨hnone, rfl⟩
  · rw [hstock]
    exact Decimal.number_toString level
  · rw [hnone]
    rfl

theorem stocked_setStock (k : Keyspace) (w : WarehouseId) (s : Sku) (qty : Int) :
    Stocked ((RedisLike.scripts lua).setStock k w s qty) (stockKey w s) qty :=
  Or.inl (Keyspace.entries_put_self _)

/-! ## All calls -/

/-- The counter after one operation, and its answer. -/
theorem Stocked.step (hexact : lua.Exact ofInt) (h : Stocked k key level) (hrange : level.natAbs < 2 ^ 53)
    {op : Op} (hop : Contends key op) (htimely : op.Timely k.now) :
    ∃ k' reply, (Deployment.scripts lua).run op k = (k', reply) ∧ k'.now = k.now + op.ms ∧
      ((op.requested = none ∧ Stocked k' key level ∧
        Event.accepted ⟨op, reply⟩ = none ∧ Event.rejected ⟨op, reply⟩ = none) ∨
      ∃ q, op.requested = some q ∧ 0 < q ∧
        if q ≤ level then
          Stocked k' key (level - q) ∧ Event.accepted ⟨op, reply⟩ = some q ∧ Event.rejected ⟨op, reply⟩ = none
        else
          k' = k ∧ Event.accepted ⟨op, reply⟩ = none ∧ Event.rejected ⟨op, reply⟩ = some q) := by
  cases op with
  | setStock _ _ _ => exact hop.elim
  | release _ _ _ => exact hop.elim
  | commit _ _ _ => exact hop.elim
  | elapse ms => exact ⟨k.elapse ms, .done, rfl, rfl, Or.inl ⟨rfl, h.elapse ms, rfl, rfl⟩⟩
  | reserve w s q ttl resv =>
    obtain ⟨rfl, hq⟩ := hop
    by_cases hfit : q ≤ level
    · obtain ⟨k', hok, hstocked, hnow⟩ := scripts_reserve_served hexact h hrange hq hfit htimely
      refine ⟨k', .reserved (.ok (.accepted resv (level - q))), ?_, hnow, Or.inr ⟨q, rfl, hq, ?_⟩⟩
      · show ((RedisLike.scripts lua).reserve k w s q ttl resv).map _ _ = _
        rw [hok]
        rfl
      · rw [if_pos hfit]
        exact ⟨hstocked, rfl, rfl⟩
    · obtain ⟨reason, remaining, hrejected⟩ : ∃ reason remaining,
          (RedisLike.scripts lua).reserve k w s q ttl resv = (k, .ok (.rejected reason remaining)) :=
        scripts_reserve_refused hexact h hrange hq (Int.not_le.mp hfit)
      refine ⟨k, .reserved (.ok (.rejected reason remaining)), ?_, rfl, Or.inr ⟨q, rfl, hq, ?_⟩⟩
      · show ((RedisLike.scripts lua).reserve k w s q ttl resv).map _ _ = _
        rw [hrejected]
        rfl
      · rw [if_neg hfit]
        exact ⟨rfl, rfl, rfl⟩

/-- All calls together serve their requests greedily. -/
theorem Stocked.runAll (hexact : lua.Exact ofInt) (h : Stocked k key level) (hlow : 0 ≤ level)
    (hhigh : level < 2 ^ 53) {ops : List Op} (hops : ∀ op ∈ ops, Contends key op)
    (hpunctual : Punctual k.now ops) :
    Stocked ((Deployment.scripts lua).runAll ops k).1 key (Greedy.rest level (ops.filterMap Op.requested)) ∧
      ((Deployment.scripts lua).runAll ops k).2.filterMap Event.accepted =
        Greedy.served level (ops.filterMap Op.requested) ∧
      ((Deployment.scripts lua).runAll ops k).2.filterMap Event.rejected =
        Greedy.refused level (ops.filterMap Op.requested) := by
  induction ops generalizing k level with
  | nil => exact ⟨h, rfl, rfl⟩
  | cons op ops ih =>
    have hrest : ∀ op ∈ ops, Contends key op := fun op' hop' => hops op' (List.mem_cons_of_mem op hop')
    obtain ⟨htimely, hlater⟩ := hpunctual
    obtain ⟨k', reply, hrun, hnow, hcases⟩ :=
      h.step hexact (by omega) (hops op List.mem_cons_self) htimely
    rw [← hnow] at hlater
    simp only [Deployment.runAll, hrun]
    rcases hcases with ⟨hreq, hs, hacc, hrej⟩ | ⟨q, hreq, hq, hcases⟩
    · rw [List.filterMap_cons_none hreq, List.filterMap_cons_none hacc, List.filterMap_cons_none hrej]
      exact ih hs hlow hhigh hrest hlater
    · rw [List.filterMap_cons_some hreq, Greedy.rest, Greedy.served, Greedy.refused]
      split_ifs at hcases ⊢ with hfit
      · obtain ⟨hs, hacc, hrej⟩ := hcases
        obtain ⟨hrest', hserved, hrefused⟩ := ih hs (by omega) (by omega) hrest hlater
        rw [List.filterMap_cons_some hacc, List.filterMap_cons_none hrej, hserved]
        exact ⟨hrest', rfl, hrefused⟩
      · obtain ⟨rfl, hacc, hrej⟩ := hcases
        obtain ⟨hrest', hserved, hrefused⟩ := ih h hlow hhigh hrest hlater
        rw [List.filterMap_cons_none hacc, List.filterMap_cons_some hrej, hrefused]
        exact ⟨hrest', hserved, rfl⟩

theorem Contends.requested_pos {op : Op} (h : Contends key op) {q : Int}
    (hq : op.requested = some q) : 0 < q := by
  cases op with
  | reserve w s q' ttl id =>
    rw [Op.requested, Option.some.injEq] at hq
    obtain ⟨_, hpos⟩ := h
    omega
  | setStock _ _ _ | release _ _ _ | commit _ _ _ | elapse _ => cases hq

/-- Contention for fewer than 2^53 units neither oversells nor turns away a call that fits what is left, as long as
no deadline is refused. -/
theorem contention_exact (hexact : lua.Exact ofInt) (h : Stocked k (stockKey w s) level) (hlow : 0 ≤ level)
    (hhigh : level < 2 ^ 53) {ops : List Op} (hops : ∀ op ∈ ops, Contends (stockKey w s) op)
    (hpunctual : Punctual k.now ops) :
    let (k', events) := (Deployment.scripts lua).runAll ops k
    let available := (Deployment.scripts lua).available k' w s
    let requests := ops.filterMap Op.requested
    available = level - (events.filterMap Event.accepted).sum ∧ 0 ≤ available ∧
      (∀ q ∈ events.filterMap Event.rejected, available < q) ∧
      (events.filterMap Event.accepted).length + (events.filterMap Event.rejected).length =
        requests.length ∧
      ∀ q, 0 < q → (∀ x ∈ requests, x = q) →
        ((events.filterMap Event.accepted).length : Int) = min (requests.length : Int) (level / q) := by
  obtain ⟨hs, hacc, hrej⟩ := h.runAll hexact hlow hhigh hops hpunctual
  have hpos : ∀ q ∈ ops.filterMap Op.requested, 0 ≤ q := by
    intro q hq
    obtain ⟨op, hop, hreq⟩ := List.mem_filterMap.mp hq
    exact ((hops op hop).requested_pos hreq).le
  simp only [hacc, hrej, hs.available]
  refine ⟨Greedy.rest_eq _ _, Greedy.rest_nonneg hlow _, fun q hq => ?_, ?_, fun q hq hall => ?_⟩
  · exact Greedy.rest_lt_of_mem_refused hpos hq
  · exact Greedy.length_served_add_refused _ _
  · exact Greedy.length_served_of_eq hlow hq hall

/-- A rush on five units. -/
def rush : List Op :=
  [.reserve "warehouse" "sku" 3 900 "a", .elapse 1000, .reserve "warehouse" "sku" 4 900 "b",
    .reserve "warehouse" "sku" 2 900 "c", .reserve "warehouse" "sku" 1 900 "d"]

theorem rush_exact :
    let (k', events) := (Deployment.scripts .doubles).runAll rush
      ((RedisLike.scripts .doubles).setStock .empty "warehouse" "sku" 5)
    events.filterMap Event.rejected = [4, 1] ∧
      (Deployment.scripts .doubles).available k' "warehouse" "sku" =
        5 - (events.filterMap Event.accepted).sum := by
  have hops : ∀ op ∈ rush, Contends (stockKey "warehouse" "sku") op := by
    simp [rush, Contends]
  have hpunctual : Punctual ((RedisLike.scripts .doubles).setStock .empty "warehouse" "sku" 5).now rush := by
    simp only [rush, Punctual]
    decide +kernel
  have hlevel : (0 : Int) ≤ 5 := by decide
  have hsmall : (5 : Int) < 2 ^ 53 := by decide
  exact ⟨by decide +kernel,
    (contention_exact doubles_exact (stocked_setStock _ _ _ _) hlevel hsmall hops hpunctual).1⟩

/-- A rush on a number of units, in reservations with a time to live. -/
def rushOn (quantities : List Int) (ttlSeconds : Int) : List Op :=
  quantities.map fun qty => .reserve "warehouse" "sku" qty ttlSeconds "a"

/-- With 2^53 + 4 units, one is reserved and then all; and units are gone that no call was told it has. -/
theorem rush_miscounted :
    (∃ level ops, 0 ≤ level ∧ (∀ op ∈ ops, Contends (stockKey "warehouse" "sku") op) ∧
      (Deployment.scripts .doubles).available ((Deployment.scripts .doubles).runAll ops
        ((RedisLike.scripts .doubles).setStock .empty "warehouse" "sku" level)).1 "warehouse" "sku" < 0) ∧
    ∀ ttlSeconds ∈ [(0 : Int), 10 ^ 16],
      let (k', events) := (Deployment.scripts .doubles).runAll (rushOn [2] ttlSeconds)
        ((RedisLike.scripts .doubles).setStock .empty "warehouse" "sku" 5)
      (Deployment.scripts .doubles).available k' "warehouse" "sku" = 3 ∧
        events.filterMap Event.accepted = [] := by
  refine ⟨⟨9007199254740996, rushOn [1, 9007199254740996] 900, by decide, ?_, by decide +kernel⟩, ?_⟩
  · simp [rushOn, Contends]
  · decide +kernel

end SupplyChain
