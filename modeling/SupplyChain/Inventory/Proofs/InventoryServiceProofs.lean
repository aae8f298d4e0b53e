import SupplyChain.Inventory.InventoryService
import SupplyChain.Inventory.Proofs.RedisProofs

/-!
# Proofs: what the inventory operations do to counters and reservations

Every operation is described by its effect on `units` and `held`: stock keys and reservation keys never
meet, so a command on one kind leaves the other alone.
-/

namespace SupplyChain.InventoryService

variable {r : Redis} {w : WarehouseId} {s : Sku} {id x : ReservationId} {item : String}

theorem stockKey_eq : stockKey w s = "stock:" ++ itemName w s := by
  simp [stockKey, itemName, String.append_assoc]

theorem stock_prefix_ne (item id : String) : "stock:" ++ item ≠ reservationKey id := by
  intro h
  have := congrArg String.toList h
  simp [reservationKey, String.toList_append] at this

theorem reservationKey_inj : reservationKey x = reservationKey id ↔ x = id :=
  String.append_right_inj "resv:"

theorem stockKey_inj {w' : WarehouseId} {s' : Sku} :
    stockKey w s = stockKey w' s' ↔ itemName w s = itemName w' s' := by
  rw [stockKey_eq, stockKey_eq, String.append_right_inj]

theorem stockKey_ne_reservationKey (w : WarehouseId) (s : Sku) (id : ReservationId) :
    stockKey w s ≠ reservationKey id := by
  rw [stockKey_eq]
  exact stock_prefix_ne _ _

theorem getAvailable_eq : getAvailable r w s = units r (itemName w s) := by
  rw [getAvailable, units, stockKey_eq]

/-! ## Counters and reservations after a command -/

@[simp] theorem units_set (v : Int) : units (r.set (stockKey w s) v) item =
    if item = itemName w s then v else units r item := by
  rw [units, Redis.lookup_set, stockKey_eq]
  by_cases h : item = itemName w s <;> simp [h, units]

@[simp] theorem units_incrBy (n : Int) : units (r.incrBy (stockKey w s) n) item =
    units r item + if item = itemName w s then n else 0 := by
  rw [units, Redis.lookup_incrBy, stockKey_eq]
  by_cases h : item = itemName w s
  · simp [h, units]
  · simp [h, units]

@[simp] theorem held_incrBy (n : Int) : held (r.incrBy (stockKey w s) n) x = held r x := by
  rw [held, Redis.lookup_incrBy, if_neg (stockKey_ne_reservationKey _ _ _).symm, held]

@[simp] theorem units_setEx (v : Int) (n : Nat) :
    units (r.setEx (reservationKey id) v n) item = units r item := by
  rw [units, Redis.setEx, Redis.lookup_put, if_neg (stock_prefix_ne _ _), units]

theorem held_setEx (v : Int) {n : Nat} (h : 0 < n) : held (r.setEx (reservationKey id) v n) x =
    if x = id then some v else held r x := by
  rw [held, Redis.lookup_setEx v h]
  simp [reservationKey_inj, held]

@[simp] theorem units_del : units (r.del (reservationKey id)) item = units r item := by
  rw [units, Redis.lookup_del, if_neg (stock_prefix_ne _ _), units]

@[simp] theorem held_del : held (r.del (reservationKey id)) x = if x = id then none else held r x := by
  rw [held, Redis.lookup_del]
  simp [reservationKey_inj, held]

/-! ## The operations -/

/-- A reservation either changes nothing, because the quantity is not positive or the counter is
below it, or takes the quantity from the counter and books it under the drawn id. -/
theorem reserve_cases (r : Redis) (w : WarehouseId) (s : Sku) (qty : Int) {ttl : Int} (ht : 0 < ttl)
    (id : ReservationId) :
    (∃ reason remaining, reserve r w s qty ttl id = (r, .ok (.rejected reason remaining)) ∧
      (qty ≤ 0 ∨ units r (itemName w s) < qty)) ∨
    (0 < qty ∧ qty ≤ units r (itemName w s) ∧
      reserve r w s qty ttl id =
        ((r.incrBy (stockKey w s) (-qty)).setEx (reservationKey id) qty ttl.toNat,
          .ok (.accepted id (units r (itemName w s) - qty)))) := by
  by_cases hq : qty ≤ 0
  · exact Or.inl ⟨.INVALID_QTY, none, by simp [reserve, hq], Or.inl hq⟩
  · have hq' : 0 < qty := by omega
    simp only [reserve, hq, if_false, exactReserve_eval r _ _ _ hq' ht, false_or]
    have hu : units r (itemName w s) = (r.lookup (stockKey w s)).getD 0 := by
      rw [units, stockKey_eq]
    cases hl : r.lookup (stockKey w s) with
    | none =>
      refine Or.inl ⟨.UNKNOWN_SKU, some 0, rfl, ?_⟩
      rw [hu, hl]
      exact hq'
    | some available =>
      rw [hl, Option.getD_some] at hu
      by_cases ha : available < qty
      · exact Or.inl ⟨.INSUFFICIENT_STOCK, some available, by simp [ha], by rw [hu]; exact ha⟩
      · exact Or.inr ⟨hq', by omega, by simp [ha, hu]⟩

theorem release_of_none (h : held r id = none) : release r w s id = (r, .ok .ALREADY_RESOLVED) := by
  rw [held] at h
  simp [release, resolve, exactRelease_eval_release, h]

theorem release_of_some {q : Int} (h : held r id = some q) : release r w s id =
    ((r.del (reservationKey id)).incrBy (stockKey w s) q, .ok .RELEASED) := by
  rw [held] at h
  simp [release, resolve, exactRelease_eval_release, h]

theorem commit_of_none (h : held r id = none) : commit r w s id = (r, .ok .ALREADY_RESOLVED) := by
  rw [held] at h
  simp [commit, resolve, exactRelease_eval_commit, h]

theorem commit_of_some {q : Int} (h : held r id = some q) : commit r w s id =
    (r.del (reservationKey id), .ok .COMMITTED) := by
  rw [held] at h
  simp [commit, resolve, exactRelease_eval_commit, h]

/-! ## Their effects on counters and reservations -/

theorem reserve_spec (r : Redis) (w : WarehouseId) (s : Sku) (qty : Int) {ttl : Int} (ht : 0 < ttl)
    (id : ReservationId) :
    (∃ reason remaining, reserve r w s qty ttl id = (r, .ok (.rejected reason remaining)) ∧
      (qty ≤ 0 ∨ units r (itemName w s) < qty)) ∨
    (∃ r' remaining, reserve r w s qty ttl id = (r', .ok (.accepted id remaining)) ∧
      0 < qty ∧ qty ≤ units r (itemName w s) ∧
      (∀ x, held r' x = if x = id then some qty else held r x) ∧
      ∀ item, units r' item = units r item - if itemName w s = item then qty else 0) := by
  rcases reserve_cases r w s qty ht id with hrej | ⟨hq, hle, hok⟩
  · exact Or.inl hrej
  · refine Or.inr ⟨_, _, hok, hq, hle, fun x => ?_, fun item => ?_⟩
    · rw [held_setEx qty (by omega), held_incrBy]
    · rw [units_setEx, units_incrBy]
      by_cases hi : itemName w s = item
      · simp only [hi, if_true]
        omega
      · simp only [hi, Ne.symm hi, if_false]
        omega

/-- A release returns what is held, and nothing when nothing is held. -/
theorem release_spec (r : Redis) (w : WarehouseId) (s : Sku) (id : ReservationId) :
    ∃ r' status, release r w s id = (r', .ok status) ∧
      (∀ x, held r' x = if x = id then none else held r x) ∧
      ∀ item, units r' item = units r item + if itemName w s = item then (held r id).getD 0 else 0 := by
  cases hh : held r id with
  | none =>
    refine ⟨r, _, release_of_none hh, fun x => ?_, fun item => by simp⟩
    by_cases hx : x = id <;> simp [hx, hh]
  | some q =>
    refine ⟨_, _, release_of_some hh, fun x => by simp, fun item => ?_⟩
    rw [units_incrBy, units_del, Option.getD_some]
    simp only [eq_comm]

theorem commit_spec (r : Redis) (w : WarehouseId) (s : Sku) (id : ReservationId) :
    ∃ r' status, commit r w s id = (r', .ok status) ∧
      (∀ x, held r' x = if x = id then none else held r x) ∧
      ∀ item, units r' item = units r item := by
  cases hh : held r id with
  | none =>
    refine ⟨r, _, commit_of_none hh, fun x => ?_, fun item => rfl⟩
    by_cases hx : x = id <;> simp [hx, hh]
  | some q => exact ⟨_, _, commit_of_some hh, fun x => by simp, fun item => by simp⟩

end SupplyChain.InventoryService
