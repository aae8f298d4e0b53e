/-!
# Taking steps until none is left

A partial step function is iterated until it stops. A measure that every step lowers says how often that
can happen.
-/

namespace Async

variable {σ : Type} {step : σ → Option σ}

/-- Take steps until there is none to take, at most `fuel` of them. -/
def settle (step : σ → Option σ) : Nat → σ → σ
  | 0, s => s
  | fuel + 1, s =>
    match step s with
    | none => s
    | some s' => settle step fuel s'

/-- What every step preserves holds at the end. -/
theorem settle_preserves {P : σ → Prop} (hstep : ∀ {s s'}, P s → step s = some s' → P s')
    (fuel : Nat) {s : σ} (h : P s) : P (settle step fuel s) := by
  induction fuel generalizing s with
  | zero => exact h
  | succ fuel ih =>
    unfold settle
    cases hs : step s with
    | none => exact h
    | some s' => exact ih (hstep h hs)

/-- With as much fuel as the measure says, no step is left at the end. -/
theorem settle_stops {P : σ → Prop} {μ : σ → Nat}
    (hstep : ∀ {s s'}, P s → step s = some s' → P s' ∧ μ s' < μ s) {fuel : Nat} {s : σ} (h : P s)
    (hfuel : μ s ≤ fuel) : step (settle step fuel s) = none := by
  induction fuel generalizing s with
  | zero =>
    cases hs : step s with
    | none => exact hs
    | some s' =>
      have hlt := (hstep h hs).2
      omega
  | succ fuel ih =>
    unfold settle
    cases hs : step s with
    | none => exact hs
    | some s' =>
      obtain ⟨h', hlt⟩ := hstep h hs
      exact ih h' (by omega)

end Async
