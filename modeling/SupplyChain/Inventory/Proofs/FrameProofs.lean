import SupplyChain.Inventory.Proofs.LedgerProofs

/-!
# Proofs: what the inventory operations leave alone

A script touches no key but its own two, whatever its arguments are and however it ends.
-/

namespace SupplyChain

open InventoryService

namespace Script

variable {α β : Type} {key : String}

theorem leaves_pure (a : α) : (pure a : Script α).Leaves key := fun _ => ⟨rfl, rfl⟩

theorem leaves_throw (e : RedisError) : (throw e : Script α).Leaves key := fun _ => ⟨rfl, rfl⟩

theorem Leaves.bind {s : Script α} {f : α → Script β} (hs : s.Leaves key) (hf : ∀ a, (f a).Leaves key) :
    (s >>= f).Leaves key := by
  intro r
  rw [eval_bind]
  have hfirst := hs r
  rcases he : s.eval r with ⟨r', e | a⟩
  · rw [he] at hfirst
    exact hfirst
  · rw [he] at hfirst
    obtain ⟨hentries, hnow⟩ := hf a r'
    exact ⟨hentries.trans hfirst.entries, hnow.trans hfirst.now⟩

theorem leaves_GET (k : String) : (GET k).Leaves key := fun _ => ⟨rfl, rfl⟩

theorem leaves_DEL {k : String} (h : key ≠ k) : (DEL k).Leaves key := fun _ => ⟨if_neg h, rfl⟩

theorem leaves_INCRBY {k : String} (h : key ≠ k) (n : Rat) : (INCRBY k n).Leaves key := by
  intro r
  unfold INCRBY
  split
  · exact ⟨Redis.entries_incrBy_of_ne h n.num, Redis.now_incrBy n.num⟩
  · exact ⟨rfl, rfl⟩

theorem leaves_SETEX {k : String} (h : key ≠ k) (value : Rat) (ttl : Option Rat) :
    (SETEX k value ttl).Leaves key := by
  intro r
  unfold SETEX
  cases ttl with
  | none => exact ⟨rfl, rfl⟩
  | some ttl =>
    dsimp only
    split_ifs
    · exact ⟨rfl, rfl⟩
    · exact ⟨rfl, rfl⟩
    · exact ⟨if_neg h, rfl⟩

/-- `exactReserve` touches its two keys only. -/
theorem leaves_exactReserve {stockKey resvKey : String} (hs : key ≠ stockKey) (hr : key ≠ resvKey)
    (qty : Option Rat) (id : String) (ttl : Option Rat) :
    (exactReserve stockKey resvKey qty id ttl).Leaves key := by
  unfold exactReserve
  cases qty with
  | none => exact leaves_throw _
  | some qty =>
    dsimp only
    split_ifs
    · exact leaves_throw _
    · refine (leaves_GET _).bind fun available => ?_
      cases available with
      | none => exact leaves_pure _
      | some available =>
        dsimp only
        split_ifs
        · exact leaves_pure _
        · refine Leaves.bind (leaves_INCRBY hs _) fun _ => ?_
          exact (leaves_SETEX hr _ _).bind fun _ => leaves_pure _

/-- `exactRelease` touches its two keys only. -/
theorem leaves_exactRelease {stockKey resvKey : String} (hs : key ≠ stockKey) (hr : key ≠ resvKey)
    (mode : String) : (exactRelease stockKey resvKey mode).Leaves key := by
  unfold exactRelease
  refine (leaves_GET _).bind fun qty => ?_
  cases qty with
  | none => exact leaves_pure _
  | some qty =>
    refine (leaves_DEL hr).bind fun _ => ?_
    split_ifs
    · exact (leaves_INCRBY hs _).bind fun _ => leaves_pure _
    · exact leaves_pure _
    · exact leaves_throw _

end Script

/-! ## Keys that an operation leaves alone -/

namespace Redis

theorem Keeps.lookup {key : String} {r r' : Redis} (h : r.Keeps key r') :
    r'.lookup key = r.lookup key := by
  rw [Redis.lookup, h.entries, h.now, Redis.lookup]

end Redis

namespace InventoryService

variable {key : String} {w : WarehouseId} {s : Sku} {id : ReservationId}

theorem reserve_keeps (r : Redis) (qty ttl : Int) (hs : key ≠ stockKey w s)
    (hr : key ≠ reservationKey id) : r.Keeps key (reserve r w s qty ttl id).1 := by
  have hleaves := Script.leaves_exactReserve hs hr (some (qty : Rat)) id (some (ttl : Rat)) r
  unfold reserve
  split
  · exact ⟨rfl, rfl⟩
  · split <;> (rename_i heq; rw [heq] at hleaves; exact hleaves)

theorem resolve_keeps (r : Redis) (mode : String) (hs : key ≠ stockKey w s)
    (hr : key ≠ reservationKey id) : r.Keeps key (resolve r w s id mode).1 := by
  have hleaves := Script.leaves_exactRelease hs hr mode r
  unfold resolve
  split <;> (rename_i heq; rw [heq] at hleaves; exact hleaves)

end InventoryService

end SupplyChain
