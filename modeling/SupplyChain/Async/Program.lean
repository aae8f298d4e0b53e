import Mathlib.Logic.Function.Basic
import Mathlib.Logic.Relation

/-!
# Programs that await calls

A program over an interface of calls either returns, throws, or awaits one call and goes on with
the reply. Programs are well-founded trees: every loop of a program runs over a list it holds.

A handler says what a call does to the shared state and what it replies. `Prog.exec` runs one program
alone; `System.Step` runs a pool of programs over one state, one awaited call at a time, in any order.
-/

namespace Async

/-- An interface of awaited calls: the calls, and the type of the reply to each. -/
structure Interface where
  /-- What can be awaited. -/
  Call : Type
  /-- What an awaited call resolves to. -/
  Reply : Call → Type

/-- A program over the interface `S` that throws errors of type `ε` and returns an `α`. -/
inductive Prog (S : Interface) (ε α : Type) where
  /-- Return a value. -/
  | ret (a : α)
  /-- Reject with an error; nothing in a program catches one. -/
  | throw (e : ε)
  /-- Await a call, and go on with its reply. -/
  | call (c : S.Call) (k : S.Reply c → Prog S ε α)

variable {S : Interface} {ε α β σ : Type}

namespace Prog

/-- Run the second program on what the first returns, if it returns. -/
def bind : Prog S ε α → (α → Prog S ε β) → Prog S ε β
  | ret a, f => f a
  | throw e, _ => throw e
  | call c k, f => call c fun r => (k r).bind f

instance : Monad (Prog S ε) where
  pure := ret
  bind := bind

/-- The program that awaits one call and returns its reply. -/
def await (c : S.Call) : Prog S ε (S.Reply c) := call c ret

@[simp] theorem pure_eq (a : α) : (pure a : Prog S ε α) = ret a := rfl

@[simp] theorem ret_bind (a : α) (f : α → Prog S ε β) : ret a >>= f = f a := rfl

@[simp] theorem throw_bind (e : ε) (f : α → Prog S ε β) : throw e >>= f = throw e := rfl

@[simp] theorem call_bind (c : S.Call) (k : S.Reply c → Prog S ε α) (f : α → Prog S ε β) :
    call c k >>= f = call c fun r => k r >>= f := rfl

@[simp] theorem await_bind (c : S.Call) (f : S.Reply c → Prog S ε β) :
    await c >>= f = call c f := rfl

theorem bind_ret (p : Prog S ε α) : p >>= ret = p := by
  induction p with
  | ret a => rfl
  | throw e => rfl
  | call c k ih => exact congrArg (call c) (funext ih)

theorem bind_assoc {δ : Type} (p : Prog S ε α) (f : α → Prog S ε β) (g : β → Prog S ε δ) :
    p >>= f >>= g = p >>= fun a => f a >>= g := by
  induction p with
  | ret a => rfl
  | throw e => rfl
  | call c k ih => exact congrArg (call c) (funext ih)

instance : LawfulMonad (Prog S ε) :=
  LawfulMonad.mk' _ bind_ret (fun _ _ => rfl) bind_assoc

end Prog

/-- What each call does to the shared state, and its reply or the error it rejects with. -/
abbrev Handler (S : Interface) (ε σ : Type) := (c : S.Call) → σ → σ × Except ε (S.Reply c)

/-- Run a program alone to its end. -/
def Prog.exec (h : Handler S ε σ) : Prog S ε α → σ → σ × Except ε α
  | .ret a, s => (s, .ok a)
  | .throw e, s => (s, .error e)
  | .call c k, s =>
    match h c s with
    | (s', .ok r) => (k r).exec h s'
    | (s', .error e) => (s', .error e)

/-- A system that runs programs of the pool `ι` over the shared state `σ`. Each program has an
auxiliary value in `γ` that records what its calls have done; the handler never reads it. -/
structure System (S : Interface) (ι ε σ γ : Type) where
  /-- What a call does to the shared state, and its reply. -/
  handle : Handler S ε σ
  /-- How a reply updates the auxiliary value of the caller. -/
  note : γ → (c : S.Call) → S.Reply c → γ
  /-- Which calls may be taken now: the schedules under consideration. -/
  guard : ι → γ → S.Call → σ → Prop
  /-- What happens to the state by itself, such as the passing of time. -/
  env : σ → σ → Prop

/-- A pool: the shared state, and of each program what is left of it and its auxiliary value. -/
structure Pool (S : Interface) (ι ε σ γ α : Type) where
  /-- The shared state. -/
  state : σ
  /-- What the calls of each program have done. -/
  aux : ι → γ
  /-- What is left of each program. -/
  prog : ι → Prog S ε α

variable {ι γ : Type} [DecidableEq ι]

/-- One step of a pool: one program's awaited call takes effect and its continuation is resumed, or
the environment moves. -/
inductive System.Step (M : System S ι ε σ γ) : Pool S ι ε σ γ α → Pool S ι ε σ γ α → Prop where
  /-- The call that program `i` awaits resolves. -/
  | ok {P : Pool S ι ε σ γ α} (i : ι) {c : S.Call} {k : S.Reply c → Prog S ε α} {s' : σ}
      {r : S.Reply c} (hp : P.prog i = .call c k) (hg : M.guard i (P.aux i) c P.state)
      (hc : M.handle c P.state = (s', .ok r)) :
      M.Step P ⟨s', Function.update P.aux i (M.note (P.aux i) c r),
        Function.update P.prog i (k r)⟩
  /-- The call that program `i` awaits rejects, and so does the program. -/
  | error {P : Pool S ι ε σ γ α} (i : ι) {c : S.Call} {k : S.Reply c → Prog S ε α} {s' : σ} {e : ε}
      (hp : P.prog i = .call c k) (hg : M.guard i (P.aux i) c P.state)
      (hc : M.handle c P.state = (s', .error e)) :
      M.Step P ⟨s', P.aux, Function.update P.prog i (.throw e)⟩
  /-- The environment moves; no program does. -/
  | env {P : Pool S ι ε σ γ α} {s' : σ} (he : M.env P.state s') : M.Step P ⟨s', P.aux, P.prog⟩

/-- A pool gets from one to the other in any number of steps. -/
abbrev System.Reaches (M : System S ι ε σ γ) : Pool S ι ε σ γ α → Pool S ι ε σ γ α → Prop :=
  Relation.ReflTransGen M.Step

/-- The call that program `i` awaits takes effect, if it awaits one. -/
def System.turn (M : System S ι ε σ γ) (P : Pool S ι ε σ γ α) (i : ι) : Pool S ι ε σ γ α :=
  match P.prog i with
  | .ret _ | .throw _ => P
  | .call c k =>
    match M.handle c P.state with
    | (s', .ok r) => ⟨s', Function.update P.aux i (M.note (P.aux i) c r), Function.update P.prog i (k r)⟩
    | (s', .error e) => ⟨s', P.aux, Function.update P.prog i (.throw e)⟩

/-- Run a schedule: the programs take turns in the given order. -/
def System.schedule (M : System S ι ε σ γ) (P : Pool S ι ε σ γ α) (turns : List ι) :
    Pool S ι ε σ γ α :=
  turns.foldl M.turn P

/-- Program `i` may take its turn. -/
def System.Admits (M : System S ι ε σ γ) (P : Pool S ι ε σ γ α) (i : ι) : Prop :=
  match P.prog i with
  | .ret _ | .throw _ => True
  | .call c _ => M.guard i (P.aux i) c P.state

/-- In the schedule every program may take its turn when it comes. -/
def System.AdmitsAll (M : System S ι ε σ γ) : Pool S ι ε σ γ α → List ι → Prop
  | _, [] => True
  | P, i :: turns => M.Admits P i ∧ M.AdmitsAll (M.turn P i) turns

instance (M : System S ι ε σ γ) [∀ i g c s, Decidable (M.guard i g c s)] (P : Pool S ι ε σ γ α)
    (i : ι) : Decidable (M.Admits P i) := by
  unfold System.Admits
  split <;> infer_instance

instance System.decidableAdmitsAll (M : System S ι ε σ γ) [∀ i g c s, Decidable (M.guard i g c s)] :
    (P : Pool S ι ε σ γ α) → (turns : List ι) → Decidable (M.AdmitsAll P turns)
  | _, [] => .isTrue trivial
  | P, i :: turns =>
    have := System.decidableAdmitsAll M (M.turn P i) turns
    inferInstanceAs (Decidable (M.Admits P i ∧ M.AdmitsAll (M.turn P i) turns))

/-- The program has come to its end without an error. -/
def Prog.returned : Prog S ε α → Bool
  | .ret _ => true
  | _ => false

end Async
