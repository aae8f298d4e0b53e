import Mathlib.Logic.Function.Basic

/-!
# Locks

Keys that parties lock, each party one key at most. A key has one holder at most.
-/

namespace Collections

/-- Who holds which key. -/
abbrev Locks (κ ι : Type) := κ → Option ι

namespace Locks

variable {κ ι : Type} [DecidableEq κ] [DecidableEq ι]

/-- Nobody holds a lock. -/
def empty : Locks κ ι := fun _ => none

/-- The lock on `k` goes to `i`. -/
def acquire (locks : Locks κ ι) (k : κ) (i : ι) : Locks κ ι := Function.update locks k (some i)

/-- Everything that `i` holds is given back. -/
def release (locks : Locks κ ι) (i : ι) : Locks κ ι := fun k => if locks k = some i then none else locks k

/-- The holders are those that `holds` says. -/
def Held (locks : Locks κ ι) (holds : ι → Option κ) : Prop := ∀ k i, locks k = some i ↔ holds i = some k

variable {locks : Locks κ ι} {holds : ι → Option κ} {k : κ} {i j : ι}

omit [DecidableEq κ] [DecidableEq ι] in
theorem held_empty : Held (empty : Locks κ ι) fun _ => none := by
  intro k i
  constructor
  · exact fun h => nomatch h
  · exact fun h => nomatch h

omit [DecidableEq κ] [DecidableEq ι] in
theorem Held.unique (h : Held locks holds) (hi : holds i = some k) (hj : holds j = some k) : i = j := by
  have hk := (h k i).mpr hi
  rw [(h k j).mpr hj] at hk
  exact (Option.some.inj hk).symm

omit [DecidableEq κ] in
/-- A party that goes on with what it holds. -/
theorem Held.keep (h : Held locks holds) {held : Option κ} (hheld : holds i = held) :
    Held locks (Function.update holds i held) := by
  rw [← hheld, Function.update_eq_self]
  exact h

/-- A party that holds nothing takes a free key. -/
theorem Held.acquire (h : Held locks holds) (hfree : locks k = none) (hidle : holds i = none) :
    Held (locks.acquire k i) (Function.update holds i (some k)) := by
  intro k' j
  unfold Locks.acquire
  by_cases hk : k' = k
  · subst hk
    by_cases hj : j = i
    · subst hj
      simp
    · have hnot : holds j ≠ some k' := by
        intro hheld
        have htaken := (h k' j).mpr hheld
        rw [hfree] at htaken
        cases htaken
      simp [hj, hnot, Ne.symm hj]
  · by_cases hj : j = i
    · subst hj
      have hnot : locks k' ≠ some j := by
        intro htaken
        have hheld := (h k' j).mp htaken
        rw [hidle] at hheld
        cases hheld
      simp [hk, hnot, Ne.symm hk]
    · simpa [hk, hj] using h k' j

omit [DecidableEq κ] in
theorem Held.release (h : Held locks holds) :
    Held (locks.release i) (Function.update holds i none) := by
  intro k j
  unfold Locks.release
  by_cases hj : j = i
  · subst hj
    simp
  · rw [Function.update_of_ne hj, ← h k j]
    split
    · rename_i hheld
      rw [hheld]
      simp [Ne.symm hj]
    · rfl

end Locks

end Collections
