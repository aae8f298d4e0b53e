import SupplyChain.Async.Program

/-!
# Proof outlines and invariants of pools

The proof of a pool is split in two. The *outline* of a program is local: it goes along the program
and says of every call it awaits what holds of the caller's auxiliary value there, whatever the
replies are. An *invariant* relates the shared state to all auxiliary values and is checked once for
each kind of call, with the outline's condition at hand. `Sound.reaches` puts the two together.
-/

namespace Async

variable {S : Interface} {ι ε σ γ α : Type}

/-- What a program promises of its calls, and what it may assume of the replies. -/
structure Contract (S : Interface) (ε γ : Type) where
  /-- Holds of the caller's auxiliary value whenever it awaits the call. -/
  pre : γ → S.Call → Prop
  /-- Holds of the replies to the call. -/
  ans : γ → (c : S.Call) → S.Reply c → Prop
  /-- Holds of the auxiliary value of a program that ends with the error. -/
  thrown : ε → γ → Prop

/-- The contract of a program that may await any call, and that assumes something of the replies. -/
def Contract.free (ans : γ → (c : S.Call) → S.Reply c → Prop) : Contract S ε γ :=
  ⟨fun _ _ => True, ans, fun _ _ => True⟩

/-- `Outline note C Q p g`: from the auxiliary value `g` on, every call of `p` meets the precondition
of the contract `C`, and a value that `p` returns satisfies `Q`. -/
def Outline (note : γ → (c : S.Call) → S.Reply c → γ) (C : Contract S ε γ) (Q : α → γ → Prop) :
    Prog S ε α → γ → Prop
  | .ret a, g => Q a g
  | .throw e, g => C.thrown e g
  | .call c k, g => C.pre g c ∧ ∀ r, C.ans g c r → Outline note C Q (k r) (note g c r)

/-- `I` is an invariant of the system for programs that meet their contracts: each call that a contract
allows keeps it and is answered as the contract assumes, and the environment keeps it. -/
structure Sound [DecidableEq ι] (M : System S ι ε σ γ) (C : ι → Contract S ε γ)
    (I : σ → (ι → γ) → Prop) : Prop where
  /-- A call that resolves. -/
  ok : ∀ {s : σ} {gs : ι → γ} {i : ι} {c : S.Call} {s' : σ} {r : S.Reply c}, I s gs →
    (C i).pre (gs i) c → M.guard i (gs i) c s → M.handle c s = (s', .ok r) →
      (C i).ans (gs i) c r ∧ I s' (Function.update gs i (M.note (gs i) c r))
  /-- A call that rejects; the caller's auxiliary value stays. -/
  error : ∀ {s : σ} {gs : ι → γ} {i : ι} {c : S.Call} {s' : σ} {e : ε}, I s gs →
    (C i).pre (gs i) c → M.guard i (gs i) c s → M.handle c s = (s', .error e) →
      (C i).thrown e (gs i) ∧ I s' gs
  /-- A move of the environment. -/
  env : ∀ {s s' : σ} {gs : ι → γ}, I s gs → M.env s s' → I s' gs

/-- The system, as long as it does not get into `E`. -/
def System.avoiding (M : System S ι ε σ γ) (E : σ → Prop) : System S ι ε σ γ where
  handle := M.handle
  note := M.note
  guard i g c s := M.guard i g c s ∧ ¬ E (M.handle c s).1
  env s s' := M.env s s' ∧ ¬ E s'

end Async
