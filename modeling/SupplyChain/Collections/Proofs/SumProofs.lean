import Mathlib.Algebra.BigOperators.Group.Finset.Basic
import Mathlib.Algebra.BigOperators.Pi
import Mathlib.Algebra.Ring.Int.Defs

/-!
# Proofs: sums that change in one place
-/

namespace Collections

variable {α ι : Type}

/-- A finite sum that changes at one index. -/
theorem sum_change [Fintype ι] [DecidableEq ι] (f f' : ι → Int) (i : ι)
    (h : ∀ j, j ≠ i → f' j = f j) : ∑ j, f' j = ∑ j, f j + (f' i - f i) := by
  have hdiff : ∑ j, (f' j - f j) = f' i - f i := by
    refine Finset.sum_eq_single i (fun j _ hj => ?_) (fun hi => absurd (Finset.mem_univ i) hi)
    rw [h j hj, sub_self]
  rw [Finset.sum_sub_distrib] at hdiff
  omega

/-- A sum over a list without repeated keys that changes at one element. -/
theorem sum_map_change {κ : Type} {key : α → κ} {l : List α} (hl : (l.map key).Nodup) {x : α}
    (hx : x ∈ l) {f f' : α → Int} (h : ∀ y ∈ l, key y ≠ key x → f' y = f y) :
    (l.map f').sum = (l.map f).sum + (f' x - f x) := by
  induction l with
  | nil => simp at hx
  | cons y l ih =>
    rw [List.map_cons, List.nodup_cons] at hl
    simp only [List.map_cons, List.sum_cons]
    rcases List.mem_cons.mp hx with rfl | hxl
    · have hrest : l.map f' = l.map f := by
        refine List.map_congr_left fun z hz => h z (List.mem_cons_of_mem _ hz) fun hk => hl.1 ?_
        exact hk ▸ List.mem_map_of_mem hz
      rw [hrest]
      omega
    · have hy : f' y = f y := h y List.mem_cons_self fun hk =>
        hl.1 (hk ▸ List.mem_map_of_mem hxl)
      have := ih hl.2 hxl fun z hz => h z (List.mem_cons_of_mem _ hz)
      omega

end Collections
