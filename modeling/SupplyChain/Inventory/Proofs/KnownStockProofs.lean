import Mathlib.Data.List.Dedup
import SupplyChain.Collections.Proofs.InsertionMapProofs
import SupplyChain.Inventory.KnownStock
import SupplyChain.Inventory.Proofs.FrameProofs

/-!
# Proofs: which items share a counter

A pair is known to the server and to the registry by its stock key alone. Two pairs are kept apart
exactly if their keys differ, and the separator in the key does not see to that.
-/

namespace SupplyChain

open Collections InventoryService

/-! ## Counters of other items -/

namespace InventoryProcess

variable {p : InventoryProcess} {w w' : WarehouseId} {s s' : Sku} {ops : List Op}

/-- A call that names a pair leaves the counters of other items alone. -/
theorem getAvailable_call {op : Op} (hop : op.Names w s) (h : itemName w' s' ≠ itemName w s) :
    getAvailable (p.call op).redis w' s' = getAvailable p.redis w' s' := by
  have hstock : stockKey w' s' ≠ stockKey w s := fun heq => h (stockKey_inj.mp heq)
  have hresv := stockKey_ne_reservationKey w' s'
  refine congrArg (Option.getD · 0) ?_
  cases op with
  | setStock _ _ qty =>
    obtain ⟨rfl, rfl⟩ := hop
    exact (Redis.lookup_set qty).trans (if_neg hstock)
  | reserve _ _ qty ttl id =>
    obtain ⟨rfl, rfl⟩ := hop
    rw [call]
    split_ifs
    · rfl
    · exact (reserve_keeps p.redis qty ttl hstock (hresv id)).lookup
  | release _ _ id =>
    obtain ⟨rfl, rfl⟩ := hop
    exact (resolve_keeps p.redis "RELEASE" hstock (hresv id)).lookup
  | commit _ _ id =>
    obtain ⟨rfl, rfl⟩ := hop
    exact (resolve_keeps p.redis "COMMIT" hstock (hresv id)).lookup
  | elapse _ => exact hop.elim

theorem getAvailable_calls (hops : ∀ op ∈ ops, op.Names w s) (h : itemName w' s' ≠ itemName w s) :
    getAvailable (p.calls ops).redis w' s' = getAvailable p.redis w' s' := by
  induction ops generalizing p with
  | nil => rfl
  | cons op ops ih =>
    have hrest : ∀ op' ∈ ops, op'.Names w s := fun op' hop' => hops op' (List.mem_cons_of_mem op hop')
    have hfirst : getAvailable (p.call op).redis w' s' = getAvailable p.redis w' s' :=
      getAvailable_call (hops op List.mem_cons_self) h
    exact (ih hrest).trans hfirst

/-! ## The registry -/

/-- The registry holds the touched pairs, each under its own key. -/
structure Registers (p : InventoryProcess) (touched : List (WarehouseId × Sku)) : Prop where
  keyed : ∀ {key pair}, p.known.get key = some pair → stockKey pair.1 pair.2 = key
  subset : ∀ {key pair}, p.known.get key = some pair → pair ∈ touched
  all : ∀ pair ∈ touched, (p.known.get (stockKey pair.1 pair.2)).isSome = true

theorem Registers.note {touched : List (WarehouseId × Sku)} (h : p.Registers touched)
    (pair : WarehouseId × Sku) : (p.noteKnown pair.1 pair.2).Registers (touched ++ [pair]) := by
  refine { keyed := ?keyed, subset := ?subset, all := ?all }
  case keyed =>
    intro key pair' hget
    rw [noteKnown, InsertionMap.get_set] at hget
    split_ifs at hget with hkey
    · rw [← Option.some.inj hget, hkey]
    · exact h.keyed hget
  case subset =>
    intro key pair' hget
    rw [noteKnown, InsertionMap.get_set] at hget
    split_ifs at hget with hkey
    · rw [← Option.some.inj hget]
      exact List.mem_append_right _ List.mem_cons_self
    · exact List.mem_append_left _ (h.subset hget)
  case all =>
    intro pair' hmem
    rw [noteKnown, InsertionMap.get_set]
    split_ifs with hkey
    · rfl
    · rcases List.mem_append.mp hmem with hold | hnew
      · exact h.all pair' hold
      · exact absurd (by rw [List.mem_singleton.mp hnew]) hkey

theorem Registers.call {touched : List (WarehouseId × Sku)} (h : p.Registers touched) (op : Op) :
    (p.call op).Registers (touched ++ op.touches.toList) := by
  cases op with
  | setStock w s qty =>
    have hnote := h.note (w, s)
    exact ⟨hnote.keyed, hnote.subset, hnote.all⟩
  | reserve w s qty ttl id =>
    rw [InventoryProcess.call, Op.touches]
    split_ifs with hq
    · simpa using h
    · have hnote := h.note (w, s)
      exact ⟨hnote.keyed, hnote.subset, hnote.all⟩
  | release _ _ _ | commit _ _ _ | elapse _ =>
    have hsame : p.Registers (touched ++ []) := by simpa using h
    exact ⟨hsame.keyed, hsame.subset, hsame.all⟩

theorem Registers.calls {touched : List (WarehouseId × Sku)} (h : p.Registers touched)
    (ops : List Op) :
    (p.calls ops).Registers (touched ++ ops.filterMap Op.touches) := by
  induction ops generalizing p touched with
  | nil =>
    rw [List.filterMap_nil, List.append_nil]
    exact h
  | cons op ops ih =>
    have hrest := ih (h.call op)
    rw [List.append_assoc] at hrest
    have hlist : op.touches.toList ++ ops.filterMap Op.touches = (op :: ops).filterMap Op.touches := by
      rw [List.filterMap_cons]
      cases op.touches <;> rfl
    rwa [hlist] at hrest

theorem registers_started (redis : Redis) : (started redis).Registers [] where
  keyed h := by cases h
  subset h := by cases h
  all _ h := by cases h

/-- The registry lists each of the touched pairs once exactly if no two of them share a key. -/
theorem Registers.values_perm_iff {touched : List (WarehouseId × Sku)} (h : p.Registers touched) :
    p.known.values.Perm touched.dedup ↔
      ∀ pair ∈ touched, ∀ pair' ∈ touched,
        itemName pair.1 pair.2 = itemName pair'.1 pair'.2 → pair = pair' := by
  have hkeys : (p.known.values.map fun pair => stockKey pair.1 pair.2).Nodup :=
    InsertionMap.nodup_values h.keyed
  have hnodup : p.known.values.Nodup := hkeys.of_map
  rw [List.perm_ext_iff_of_nodup hnodup (List.nodup_dedup touched)]
  simp only [List.mem_dedup]
  constructor
  · intro hall pair hpair pair' hpair' hname
    exact List.inj_on_of_nodup_map hkeys ((hall pair).mpr hpair) ((hall pair').mpr hpair')
      (stockKey_inj.mpr hname)
  · intro hinj pair
    constructor
    · intro hmem
      obtain ⟨key, hget⟩ := InsertionMap.mem_values_iff.mp hmem
      exact h.subset hget
    · intro hmem
      obtain ⟨pair', hget⟩ := Option.isSome_iff_exists.mp (h.all pair hmem)
      obtain rfl := hinj pair' (h.subset hget) pair hmem (stockKey_inj.mp (h.keyed hget))
      exact InsertionMap.mem_values_iff.mpr ⟨_, hget⟩

theorem listAll_pairs (p : InventoryProcess) (localeCompare : String → String → Ordering) :
    ((p.listAll localeCompare).map KnownStockRecord.pair).Perm p.known.values := by
  refine ((List.mergeSort_perm _ _).map KnownStockRecord.pair).trans (List.Perm.of_eq ?_)
  rw [List.map_map]
  exact List.map_id _

end InventoryProcess

/-- Two pairs are isolated, and the registry tells the pairs apart, exactly if no two of them have the
same item name. -/
theorem items_isolated_iff (w w' : WarehouseId) (s s' : Sku) :
    ((∀ (p : InventoryProcess) (ops : List Op), (∀ op ∈ ops, op.Names w s) →
        getAvailable (p.calls ops).redis w' s' = getAvailable p.redis w' s') ↔
      itemName w' s' ≠ itemName w s) ∧
    ∀ (redis : Redis) (ops : List Op) (localeCompare : String → String → Ordering),
      let touched := ops.filterMap Op.touches
      let records := ((InventoryProcess.started redis).calls ops).listAll localeCompare
      (records.map KnownStockRecord.pair).Perm touched.dedup ↔
        ∀ pair ∈ touched, ∀ pair' ∈ touched,
          itemName pair.1 pair.2 = itemName pair'.1 pair'.2 → pair = pair' := by
  refine ⟨⟨fun hall hname => ?_, fun hname p ops hops => ?_⟩, fun redis ops localeCompare => ?_⟩
  · -- one `setStock` of the first pair sets the second one too
    have hset := hall (.started .empty) [.setStock w s 1] (by simp [Op.Names])
    have hkey : stockKey w' s' = stockKey w s := stockKey_inj.mpr hname
    have hone : getAvailable (setStock Redis.empty w s 1) w' s' = 1 := by
      rw [getAvailable, setStock, Redis.lookup_set, if_pos hkey]
      rfl
    have hzero : getAvailable Redis.empty w' s' = 0 := rfl
    have habsurd : (1 : Int) = 0 := by
      rw [← hone, ← hzero]
      exact hset
    omega
  · exact InventoryProcess.getAvailable_calls hops hname
  · have hreg := (InventoryProcess.registers_started redis).calls ops
    rw [List.nil_append] at hreg
    have hpairs := InventoryProcess.listAll_pairs ((InventoryProcess.started redis).calls ops)
      localeCompare
    exact ⟨fun hperm => hreg.values_perm_iff.mp (hpairs.symm.trans hperm),
      fun hinj => hpairs.trans (hreg.values_perm_iff.mpr hinj)⟩

/-- The pairs `a:b`, `c` and `a`, `b:c` share a counter and an entry of the registry. -/
theorem separator_confuses_items :
    ¬ ((∀ (w w' : WarehouseId) (s s' : Sku), w ≠ "" → s ≠ "" → w' ≠ "" → s' ≠ "" → (w, s) ≠ (w', s') →
        ∀ (p : InventoryProcess) (ops : List Op), (∀ op ∈ ops, op.Names w s) →
          getAvailable (p.calls ops).redis w' s' = getAvailable p.redis w' s')) ∧
    ¬ ∀ (ops : List Op) (localeCompare : String → String → Ordering),
      ((((InventoryProcess.started .empty).calls ops).listAll localeCompare).map
        KnownStockRecord.pair).Perm (ops.filterMap Op.touches).dedup := by
  constructor
  · intro hall
    have hset := hall "a:b" "a" "c" "b:c" (by decide) (by decide) (by decide) (by decide) (by decide)
      (.started .empty) [.setStock "a:b" "c" 5] (by simp [Op.Names])
    exact absurd hset (by decide +kernel)
  · intro hall
    have hperm := hall [.setStock "a:b" "c" 5, .setStock "a" "b:c" 7] fun _ _ => .eq
    have hlength := hperm.length_eq
    exact absurd hlength (by decide +kernel)

end SupplyChain
