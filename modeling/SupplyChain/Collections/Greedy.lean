import Mathlib.Algebra.Order.Group.Defs

/-!
# Serving requests while they fit

A stock is handed out to requests in the order in which they come: a request that fits is served in
full, and one that does not is turned away.
-/

namespace Collections

namespace Greedy

variable {α : Type} [AddCommGroup α] [LinearOrder α]

/-- The requests that are served. -/
def served : α → List α → List α
  | _, [] => []
  | level, q :: qs => if q ≤ level then q :: served (level - q) qs else served level qs

/-- The requests that are turned away. -/
def refused : α → List α → List α
  | _, [] => []
  | level, q :: qs => if q ≤ level then refused (level - q) qs else q :: refused level qs

/-- What is left in the end. -/
def rest : α → List α → α
  | level, [] => level
  | level, q :: qs => if q ≤ level then rest (level - q) qs else rest level qs

end Greedy

end Collections
