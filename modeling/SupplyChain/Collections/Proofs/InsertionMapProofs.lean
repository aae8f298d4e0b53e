import SupplyChain.Collections.InsertionMap

/-!
# Proofs: lookups in a map in insertion order
-/

namespace Collections.InsertionMap

variable {κ ν : Type} [DecidableEq κ]

theorem get_set (m : InsertionMap κ ν) (k : κ) (v : ν) (x : κ) :
    (m.set k v).get x = if x = k then some v else m.get x := by
  obtain ⟨es, hes⟩ := m
  simp only [get, set]
  clear hes
  induction es with
  | nil =>
    by_cases hx : x = k
    · simp [setEntries, hx]
    · simp [setEntries, hx, Ne.symm hx]
  | cons e es ih =>
    by_cases he : e.1 = k
    · by_cases hx : x = k
      · simp [setEntries, he, hx]
      · simp [setEntries, he, hx, Ne.symm hx]
    · by_cases hex : e.1 = x
      · have hx : x ≠ k := fun h => he (hex.trans h)
        simp [setEntries, hex, hx]
      · simpa [setEntries, he, hex] using ih

/-- The entries are exactly the pairs that lookups find. -/
theorem mem_entries_iff {m : InsertionMap κ ν} {k : κ} {v : ν} :
    (k, v) ∈ m.entries ↔ m.get k = some v := by
  obtain ⟨es, hes⟩ := m
  simp only [get]
  induction es with
  | nil => simp
  | cons e es ih =>
    rw [List.map_cons, List.nodup_cons] at hes
    by_cases he : e.1 = k
    · have hk : (k, v) ∉ es := fun hm => hes.1 (he ▸ List.mem_map_of_mem (f := Prod.fst) hm)
      obtain ⟨k', v'⟩ := e
      simp only at he
      subst he
      simp [hk, eq_comm]
    · have hne : (k, v) ≠ e := fun h => he (by rw [← h])
      simpa [he, hne] using ih hes.2

theorem mem_values_iff {m : InsertionMap κ ν} {v : ν} : v ∈ m.values ↔ ∃ k, m.get k = some v := by
  simp [values, ← mem_entries_iff]

/-- If every value tells its key, no two values tell the same. -/
theorem nodup_values {m : InsertionMap κ ν} {key : ν → κ} (h : ∀ {k v}, m.get k = some v → key v = k) :
    (m.values.map key).Nodup := by
  have hkeys : m.values.map key = m.entries.map Prod.fst := by
    rw [values, List.map_map]
    exact List.map_congr_left fun e he => h (mem_entries_iff.mp he)
  rw [hkeys]
  exact m.nodup

/-- A key that is present is set in place. -/
theorem entries_set_of_get {m : InsertionMap κ ν} {k : κ} {v₀ : ν} (h : m.get k = some v₀) (v : ν) :
    (m.set k v).entries = m.entries.map fun e => if e.1 = k then (k, v) else e := by
  obtain ⟨es, hes⟩ := m
  simp only [get, set] at h ⊢
  induction es with
  | nil => simp at h
  | cons e es ih =>
    rw [List.map_cons, List.nodup_cons] at hes
    by_cases he : e.1 = k
    · have hother : ∀ e' ∈ es, (if e'.1 = k then (k, v) else e') = e' := by
        intro e' he'
        rw [if_neg]
        rintro rfl
        exact hes.1 (he ▸ List.mem_map_of_mem he')
      rw [setEntries, if_pos he, List.map_cons, if_pos he, List.map_congr_left hother, List.map_id']
    · simp only [he, List.find?_cons, decide_false] at h
      rw [setEntries, if_neg he, List.map_cons, if_neg he, ih hes.2 h]

/-- The keys keep their places. -/
theorem keys_set_of_get {m : InsertionMap κ ν} {k : κ} {v₀ : ν} (h : m.get k = some v₀) (v : ν) :
    (m.set k v).entries.map Prod.fst = m.entries.map Prod.fst := by
  rw [entries_set_of_get h, List.map_map]
  refine List.map_congr_left fun e _ => ?_
  rw [Function.comp_apply]
  split
  · rename_i he
    exact he.symm
  · rfl

theorem length_set_of_get {m : InsertionMap κ ν} {k : κ} {v₀ : ν} (h : m.get k = some v₀) (v : ν) :
    (m.set k v).entries.length = m.entries.length := by
  have hkeys := congrArg List.length (keys_set_of_get h v)
  simpa using hkeys

/-- Setting a key that is present changes a sum over the entries in one place. -/
theorem sum_set_of_get {m : InsertionMap κ ν} {k : κ} {v₀ : ν} (h : m.get k = some v₀) (v : ν)
    (f : κ × ν → Nat) : ((m.set k v).entries.map f).sum + f (k, v₀) =
      (m.entries.map f).sum + f (k, v) := by
  obtain ⟨es, hes⟩ := m
  simp only [get, set] at h ⊢
  clear hes
  induction es with
  | nil => simp at h
  | cons e es ih =>
    by_cases he : e.1 = k
    · simp only [he, List.find?_cons, decide_true, Option.map_some, Option.some.injEq] at h
      obtain ⟨k', v'⟩ := e
      dsimp only at he h
      subst he h
      simp only [setEntries, if_true, List.map_cons, List.sum_cons]
      omega
    · simp only [he, List.find?_cons, decide_false] at h
      have hrest := ih h
      simp only [setEntries, he, if_false, List.map_cons, List.sum_cons]
      omega

/-- A key that is new is set at the end. -/
theorem entries_set_new {m : InsertionMap κ ν} {k : κ} (h : m.get k = none) (v : ν) :
    (m.set k v).entries = m.entries ++ [(k, v)] := by
  obtain ⟨es, hes⟩ := m
  simp only [get, set] at h ⊢
  clear hes
  induction es with
  | nil => rfl
  | cons e es ih =>
    by_cases he : e.1 = k
    · simp [he] at h
    · simp only [he, List.find?_cons, decide_false] at h
      simp [setEntries, he, ih h]

end Collections.InsertionMap
