import SupplyChain.Async.Outline

/-!
# Proofs: outlines compose, and sound invariants hold of every interleaving
-/

namespace Async

variable {S : Interface} {ι ε σ γ α β : Type}

section Outline

variable {note : γ → (c : S.Call) → S.Reply c → γ} {C : Contract S ε γ}

theorem outline_ret {Q : α → γ → Prop} {a : α} {g : γ} :
    Outline note C Q (.ret a) g ↔ Q a g := Iff.rfl

theorem outline_throw {Q : α → γ → Prop} {e : ε} {g : γ} :
    Outline note C Q (.throw e) g ↔ C.thrown e g := Iff.rfl

theorem Outline.await {Q : α → γ → Prop} {c : S.Call} {f : S.Reply c → Prog S ε α} {g : γ} (hpre : C.pre g c)
    (hf : ∀ r, C.ans g c r → Outline note C Q (f r) (note g c r)) : Outline note C Q (Prog.await c >>= f) g :=
  ⟨hpre, hf⟩

theorem Outline.bind {Q : α → γ → Prop} {R : β → γ → Prop} {p : Prog S ε α} {g : γ}
    {f : α → Prog S ε β} (hp : Outline note C Q p g)
    (hf : ∀ a g', Q a g' → Outline note C R (f a) g') : Outline note C R (p >>= f) g := by
  induction p generalizing g with
  | ret a => exact hf a g hp
  | throw e => exact hp
  | call c k ih => exact ⟨hp.1, fun r hr => ih r (hp.2 r hr)⟩

theorem Outline.mono {Q R : α → γ → Prop} {p : Prog S ε α} {g : γ} (hp : Outline note C Q p g)
    (h : ∀ a g', Q a g' → R a g') : Outline note C R p g := by
  induction p generalizing g with
  | ret a => exact h a g hp
  | throw e => exact hp
  | call c k ih => exact ⟨hp.1, fun r hr => ih r (hp.2 r hr)⟩

/-- A `for` loop over a list. The invariant `J` is indexed by the elements that are done and those to
come. -/
theorem Outline.forIn {δ : Type} {f : δ → Prog S ε β} {J : List δ → List δ → γ → Prop}
    (hf : ∀ done x rest g, J done (x :: rest) g →
      Outline note C (fun _ => J (done ++ [x]) rest) (f x) g) :
    ∀ (todo done : List δ) (g : γ), J done todo g →
      Outline note C (fun _ => J (done ++ todo) []) (do for x in todo do let _ ← f x) g := by
  intro todo
  induction todo with
  | nil =>
    intro done g hg
    simpa [outline_ret] using hg
  | cons x rest ih =>
    intro done g hg
    rw [List.forIn_cons, bind_assoc, bind_assoc]
    refine Outline.bind (hf done x rest g hg) fun _ g' hg' => ?_
    simpa using ih (done ++ [x]) g' hg'

/-- A contract that allows more, and assumes more of the replies, is met as well. -/
theorem Outline.weaken {C' : Contract S ε γ} {Q : α → γ → Prop} {p : Prog S ε α} {g : γ}
    (hp : Outline note C Q p g) (hpre : ∀ g c, C.pre g c → C'.pre g c)
    (hans : ∀ g c r, C.pre g c → C'.ans g c r → C.ans g c r) (hthrown : ∀ e g, C.thrown e g → C'.thrown e g) :
    Outline note C' Q p g := by
  induction p generalizing g with
  | ret a => exact hp
  | throw e => exact hthrown e g hp
  | call c k ih => exact ⟨hpre g c hp.1, fun r hr => ih r (hp.2 r (hans g c r hp.1 hr))⟩

/-- A program that promises nothing meets any free contract. -/
theorem Outline.free {ans : γ → (c : S.Call) → S.Reply c → Prop} {Q : α → γ → Prop} (hQ : ∀ a g, Q a g)
    (p : Prog S ε α) (g : γ) : Outline note (.free ans) Q p g := by
  induction p generalizing g with
  | ret a => exact hQ a g
  | throw e => trivial
  | call c k ih => exact ⟨trivial, fun r _ => ih r _⟩

end Outline

section Sound

variable [DecidableEq ι] {M : System S ι ε σ γ} {C : ι → Contract S ε γ}
  {I : σ → (ι → γ) → Prop} {Q : ι → α → γ → Prop}

/-- An invariant is sound when every call that a contract allows resolves and keeps it. -/
theorem Sound.of_resolves
    (hcall : ∀ {s : σ} {gs : ι → γ} {i : ι} {c : S.Call}, I s gs → (C i).pre (gs i) c →
      M.guard i (gs i) c s → ∃ s' r, M.handle c s = (s', .ok r) ∧ (C i).ans (gs i) c r ∧
        I s' (Function.update gs i (M.note (gs i) c r)))
    (henv : ∀ {s s' : σ} {gs : ι → γ}, I s gs → M.env s s' → I s' gs) : Sound M C I where
  ok {s gs i c s' r} hI hp hg hc := by
    obtain ⟨s₁, r₁, hc₁, hans, hI₁⟩ := hcall hI hp hg
    obtain ⟨rfl, h⟩ := Prod.mk.inj (hc.symm.trans hc₁)
    obtain rfl := Except.ok.inj h
    exact ⟨hans, hI₁⟩
  error {s gs i c s' e} hI hp hg hc := by
    obtain ⟨s₁, r₁, hc₁, -⟩ := hcall hI hp hg
    cases (Prod.mk.inj (hc.symm.trans hc₁)).2
  env := henv

/-- One step of a pool keeps the invariant and what is left of each outline. -/
theorem Sound.step (h : Sound M C I) {P P' : Pool S ι ε σ γ α} (hs : M.Step P P')
    (hI : I P.state P.aux) (ho : ∀ i, Outline M.note (C i) (Q i) (P.prog i) (P.aux i)) :
    I P'.state P'.aux ∧ ∀ i, Outline M.note (C i) (Q i) (P'.prog i) (P'.aux i) := by
  cases hs with
  | ok i hp hg hc =>
    have hoi := ho i
    rw [hp] at hoi
    obtain ⟨hans, hI'⟩ := h.ok hI hoi.1 hg hc
    refine ⟨hI', fun j => ?_⟩
    by_cases hj : j = i
    · subst hj
      simpa using hoi.2 _ hans
    · simpa [Function.update_of_ne hj] using ho j
  | error i hp hg hc =>
    have hoi := ho i
    rw [hp] at hoi
    obtain ⟨hthrown, hI'⟩ := h.error hI hoi.1 hg hc
    refine ⟨hI', fun j => ?_⟩
    by_cases hj : j = i
    · subst hj
      simpa [outline_throw] using hthrown
    · simpa [Function.update_of_ne hj] using ho j
  | env he => exact ⟨h.env hI he, ho⟩

/-- A sound invariant, once established, holds in every pool that any interleaving reaches, and so
does what is left of each outline. -/
theorem Sound.reaches (h : Sound M C I) {P P' : Pool S ι ε σ γ α} (hr : M.Reaches P P')
    (hI : I P.state P.aux) (ho : ∀ i, Outline M.note (C i) (Q i) (P.prog i) (P.aux i)) :
    I P'.state P'.aux ∧ ∀ i, Outline M.note (C i) (Q i) (P'.prog i) (P'.aux i) := by
  induction hr with
  | refl => exact ⟨hI, ho⟩
  | tail _ hs ih => exact h.step hs ih.1 ih.2

/-- What a system does without getting into what it cannot leave. -/
theorem reaches_avoiding {E : σ → Prop} (hkeep : ∀ c s, E s → E (M.handle c s).1)
    (henv : ∀ s s', M.env s s' → E s → E s') {P P' : Pool S ι ε σ γ α} (hr : M.Reaches P P')
    (hend : ¬ E P'.state) : (M.avoiding E).Reaches P P' := by
  induction hr with
  | refl => exact Relation.ReflTransGen.refl
  | @tail P P' _ hs ih =>
    cases hs with
    | @ok i c k s' r hp hg hc =>
      have hafter : (M.handle c P.state).1 = s' := congrArg Prod.fst hc
      have hnot : ¬ E (M.handle c P.state).1 := hafter ▸ hend
      exact (ih fun hE => hnot (hkeep c _ hE)).tail (.ok i hp ⟨hg, hnot⟩ hc)
    | @error i c k s' e hp hg hc =>
      have hafter : (M.handle c P.state).1 = s' := congrArg Prod.fst hc
      have hnot : ¬ E (M.handle c P.state).1 := hafter ▸ hend
      exact (ih fun hE => hnot (hkeep c _ hE)).tail (.error i hp ⟨hg, hnot⟩ hc)
    | env he => exact (ih fun hE => hend (henv _ _ he hE)).tail (.env ⟨he, hend⟩)

end Sound

end Async
