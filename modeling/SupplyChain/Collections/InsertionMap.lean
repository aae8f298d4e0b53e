import Mathlib.Algebra.Ring.Nat
import Mathlib.Data.List.Nodup

/-!
# Maps that remember the order of insertion

A finite map that iterates over its entries in the order in which the keys were first set. Setting a
key that is present replaces its value in place.
-/

namespace Collections

/-- A map in insertion order. No key occurs twice. -/
structure InsertionMap (κ ν : Type) where
  /-- The entries, the oldest key first. -/
  entries : List (κ × ν)
  /-- No key has two entries. -/
  nodup : (entries.map Prod.fst).Nodup

namespace InsertionMap

variable {κ ν : Type} [DecidableEq κ]

/-- `new Map()` -/
def empty : InsertionMap κ ν := ⟨[], List.nodup_nil⟩

/-- `map.get(k)` -/
def get (m : InsertionMap κ ν) (k : κ) : Option ν :=
  (m.entries.find? fun e => e.1 = k).map Prod.snd

/-- `[...map.values()]` -/
def values (m : InsertionMap κ ν) : List ν := m.entries.map Prod.snd

/-- The entries after `k` has been set to `v`. -/
def setEntries (k : κ) (v : ν) : List (κ × ν) → List (κ × ν)
  | [] => [(k, v)]
  | e :: es => if e.1 = k then (k, v) :: es else e :: setEntries k v es

theorem mem_setEntries_keys {k : κ} {v : ν} {es : List (κ × ν)} {x : κ} :
    x ∈ (setEntries k v es).map Prod.fst ↔ x = k ∨ x ∈ es.map Prod.fst := by
  induction es with
  | nil => simp [setEntries]
  | cons e es ih =>
    by_cases h : e.1 = k
    · subst h
      simp [setEntries]
    · simp only [setEntries, h, if_false, List.map_cons, List.mem_cons, ih]
      tauto

theorem setEntries_nodup {k : κ} {v : ν} {es : List (κ × ν)} (h : (es.map Prod.fst).Nodup) :
    ((setEntries k v es).map Prod.fst).Nodup := by
  induction es with
  | nil => simp [setEntries]
  | cons e es ih =>
    rw [List.map_cons, List.nodup_cons] at h
    by_cases he : e.1 = k
    · subst he
      simpa [setEntries] using h
    · rw [setEntries, if_neg he, List.map_cons, List.nodup_cons, mem_setEntries_keys]
      exact ⟨fun hm => hm.elim he h.1, ih h.2⟩

/-- `map.set(k, v)`: a key that is there keeps its place. -/
def set (m : InsertionMap κ ν) (k : κ) (v : ν) : InsertionMap κ ν :=
  ⟨setEntries k v m.entries, setEntries_nodup m.nodup⟩

end InsertionMap

end Collections
