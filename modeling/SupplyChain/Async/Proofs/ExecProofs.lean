import SupplyChain.Async.Proofs.OutlineProofs

/-!
# Proofs: programs that run alone
-/

namespace Async

variable {S : Interface} {ι ε σ γ α β : Type}

theorem exec_bind (h : Handler S ε σ) (p : Prog S ε α) (f : α → Prog S ε β) (s : σ) :
    (p >>= f).exec h s =
      match p.exec h s with
      | (s', .ok a) => (f a).exec h s'
      | (s', .error e) => (s', .error e) := by
  induction p generalizing s with
  | ret a => rfl
  | throw e => rfl
  | call c k ih =>
    rw [Prog.call_bind, Prog.exec, Prog.exec]
    rcases h c s with ⟨s', e | r⟩
    · rfl
    · exact ih r s'

theorem exec_bind_ok {h : Handler S ε σ} {p : Prog S ε α} {f : α → Prog S ε β} {s s' : σ} {a : α}
    (hp : p.exec h s = (s', .ok a)) : (p >>= f).exec h s = (f a).exec h s' := by
  rw [exec_bind, hp]

theorem exec_call_ok {h : Handler S ε σ} {c : S.Call} {k : S.Reply c → Prog S ε α} {s s' : σ}
    {r : S.Reply c} (hc : h c s = (s', .ok r)) :
    (Prog.call c k).exec h s = (k r).exec h s' := by
  rw [Prog.exec, hc]

theorem exec_await_ok {h : Handler S ε σ} {c : S.Call} {s s' : σ} {r : S.Reply c}
    (hc : h c s = (s', .ok r)) : (Prog.await c : Prog S ε _).exec h s = (s', .ok r) :=
  exec_call_ok hc

variable [DecidableEq ι] {M : System S ι ε σ γ}

theorem reaches_turn {P : Pool S ι ε σ γ α} {i : ι} (hg : M.Admits P i) :
    M.Reaches P (M.turn P i) := by
  unfold System.Admits at hg
  unfold System.turn
  split
  · exact .refl
  · exact .refl
  · rename_i c k hp
    rw [hp] at hg
    split
    · rename_i s' r hc
      exact .single (.ok i hp hg hc)
    · rename_i s' e hc
      exact .single (.error i hp hg hc)

/-- A schedule in which every turn is admitted is an interleaving. -/
theorem reaches_admitted (turns : List ι) :
    ∀ P : Pool S ι ε σ γ α, M.AdmitsAll P turns → M.Reaches P (M.schedule P turns) := by
  induction turns with
  | nil => exact fun P _ => .refl
  | cons i turns ih => exact fun P h => (reaches_turn h.1).trans (ih _ h.2)

theorem admitsAll_of_guard (hg : ∀ i g c s, M.guard i g c s) (turns : List ι) :
    ∀ P : Pool S ι ε σ γ α, M.AdmitsAll P turns := by
  induction turns with
  | nil => exact fun _ => trivial
  | cons i turns ih =>
    refine fun P => ⟨?_, ih _⟩
    unfold System.Admits
    split
    · trivial
    · trivial
    · exact hg _ _ _ _

/-- Every schedule is an interleaving if the guard admits every call. -/
theorem reaches_schedule (hg : ∀ i g c s, M.guard i g c s) (turns : List ι)
    (P : Pool S ι ε σ γ α) : M.Reaches P (M.schedule P turns) :=
  reaches_admitted turns P (admitsAll_of_guard hg turns P)

/-- The call that a program awaits takes effect, and nothing else happens. -/
theorem reaches_await {P : Pool S ι ε σ γ α} {i : ι} {c : S.Call} {f : S.Reply c → Prog S ε α} {s' : σ}
    {r : S.Reply c} (hp : P.prog i = Prog.await c >>= f) (hg : M.guard i (P.aux i) c P.state)
    (hc : M.handle c P.state = (s', .ok r)) : ∃ P', M.Reaches P P' ∧ P'.prog i = f r ∧ P'.state = s' ∧
      P'.aux i = M.note (P.aux i) c r ∧ ∀ j, j ≠ i → P'.prog j = P.prog j := by
  refine ⟨_, .single (.ok i hp hg hc), Function.update_self .., rfl, Function.update_self .., ?_⟩
  intro j hj
  exact Function.update_of_ne hj _ _

omit [DecidableEq ι] in
theorem Prog.returned_iff {p : Prog S ε α} : p.returned = true ↔ ∃ a, p = .ret a := by
  cases p <;> simp [Prog.returned]

/-- A sound invariant holds after a program has run alone, and so does the program's outline. -/
theorem Sound.exec {C : ι → Contract S ε γ} {I : σ → (ι → γ) → Prop} (h : Sound M C I)
    (hg : ∀ i g c s, M.guard i g c s) {i : ι} {Q : α → γ → Prop} {p : Prog S ε α} :
    ∀ {s : σ} {gs : ι → γ}, I s gs → Outline M.note (C i) Q p (gs i) →
      ∃ g, I (p.exec M.handle s).1 (Function.update gs i g) ∧
        match (p.exec M.handle s).2 with
        | .ok a => Q a g
        | .error e => (C i).thrown e g := by
  induction p with
  | ret a =>
    intro s gs hI ho
    exact ⟨gs i, by rwa [Function.update_eq_self], ho⟩
  | throw e =>
    intro s gs hI ho
    exact ⟨gs i, by rwa [Function.update_eq_self], ho⟩
  | call c k ih =>
    intro s gs hI ho
    rw [Prog.exec]
    rcases hc : M.handle c s with ⟨s', e | r⟩
    · obtain ⟨hthrown, hI'⟩ := h.error hI ho.1 (hg _ _ _ _) hc
      exact ⟨gs i, by rwa [Function.update_eq_self], hthrown⟩
    · obtain ⟨hans, hI'⟩ := h.ok hI ho.1 (hg _ _ _ _) hc
      obtain ⟨g, hg', hQ⟩ := ih r hI' (by simpa using ho.2 r hans)
      exact ⟨g, by simpa using hg', hQ⟩

end Async
