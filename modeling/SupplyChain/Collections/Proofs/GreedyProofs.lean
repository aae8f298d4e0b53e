import Mathlib.Algebra.BigOperators.Group.List.Basic
import Mathlib.Algebra.Order.Group.Int
import Mathlib.Algebra.Order.Sub.Basic
import SupplyChain.Collections.Greedy

/-!
# Proofs: nothing is handed out twice, and nobody who fits is turned away
-/

namespace Collections.Greedy

variable {α : Type} [AddCommGroup α] [LinearOrder α]

theorem rest_eq (level : α) (qs : List α) : rest level qs = level - (served level qs).sum := by
  induction qs generalizing level with
  | nil => rw [rest, served, List.sum_nil, sub_zero]
  | cons q qs ih =>
    rw [rest, served]
    split_ifs with h
    · rw [ih, List.sum_cons, sub_sub]
    · exact ih level

theorem length_served_add_refused (level : α) (qs : List α) :
    (served level qs).length + (refused level qs).length = qs.length := by
  induction qs generalizing level with
  | nil => rfl
  | cons q qs ih =>
    rw [served, refused]
    split_ifs with h
    · have hrest := ih (level - q)
      simp only [List.length_cons]
      omega
    · have hrest := ih level
      simp only [List.length_cons]
      omega

variable [IsOrderedAddMonoid α]

theorem rest_nonneg {level : α} (h : 0 ≤ level) (qs : List α) : 0 ≤ rest level qs := by
  induction qs generalizing level with
  | nil => exact h
  | cons q qs ih =>
    rw [rest]
    split_ifs with hq
    · exact ih (sub_nonneg.mpr hq)
    · exact ih h

/-- Serving only lowers the level. -/
theorem rest_le {level : α} {qs : List α} (h : ∀ q ∈ qs, 0 ≤ q) : rest level qs ≤ level := by
  induction qs generalizing level with
  | nil => exact le_rfl
  | cons q qs ih =>
    have hqs : ∀ q' ∈ qs, 0 ≤ q' := fun q' hq' => h q' (List.mem_cons_of_mem q hq')
    rw [rest]
    split_ifs with hq
    · exact (ih hqs).trans (sub_le_self level (h q List.mem_cons_self))
    · exact ih hqs

/-- What was turned away does not even fit what is left in the end. -/
theorem rest_lt_of_mem_refused {level q : α} {qs : List α} (h : ∀ q ∈ qs, 0 ≤ q)
    (hq : q ∈ refused level qs) : rest level qs < q := by
  induction qs generalizing level with
  | nil => cases hq
  | cons q' qs ih =>
    have hqs : ∀ x ∈ qs, 0 ≤ x := fun x hx => h x (List.mem_cons_of_mem q' hx)
    rw [refused] at hq
    rw [rest]
    split_ifs at hq ⊢ with hfit
    · exact ih hqs hq
    · rcases List.mem_cons.mp hq with rfl | hmem
      · exact lt_of_le_of_lt (rest_le hqs) (not_le.mp hfit)
      · exact ih hqs hmem

/-- Of equal requests as many are served as there are, or as fit. -/
theorem length_served_of_eq {level q : Int} (hlevel : 0 ≤ level) (hq : 0 < q) {qs : List Int}
    (h : ∀ x ∈ qs, x = q) : ((served level qs).length : Int) = min (qs.length : Int) (level / q) := by
  induction qs generalizing level with
  | nil =>
    have hdiv : 0 ≤ level / q := Int.ediv_nonneg hlevel hq.le
    rw [served]
    simp only [List.length_nil]
    omega
  | cons q' qs ih =>
    obtain rfl : q' = q := h q' List.mem_cons_self
    have hqs : ∀ x ∈ qs, x = q' := fun x hx => h x (List.mem_cons_of_mem q' hx)
    rw [served]
    split_ifs with hfit
    · -- one less fits after one was served
      have hdiv : (level - q') / q' = level / q' - 1 := by
        rw [Int.sub_ediv_of_dvd level (dvd_refl q'), Int.ediv_self hq.ne']
      have hrest : ((served (level - q') qs).length : Int) =
          min (qs.length : Int) ((level - q') / q') := ih (by omega) hqs
      simp only [List.length_cons]
      omega
    · have hdiv : level / q' = 0 := Int.ediv_eq_zero_of_lt hlevel (not_le.mp hfit)
      have hrest := ih hlevel hqs
      simp only [List.length_cons]
      omega

end Collections.Greedy
