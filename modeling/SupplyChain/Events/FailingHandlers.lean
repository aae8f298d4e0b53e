import SupplyChain.Events.EventBus

/-!
# A bus whose handlers may throw

An error that an awaited handler throws leaves the loops of `drain` through its `finally`: the pass ends
where it is, the cursor of the group stays, and the `publish` that had started the pass rejects.
-/

namespace SupplyChain

/-- What can happen next if handlers may throw. -/
inductive FallibleAction (E H : Type) where
  /-- What happens on a bus whose handlers do not throw. -/
  | act (a : BusAction E H)
  /-- The handler of the group `key` that the pass awaits throws. -/
  | throws (key : String)

namespace InMemoryEventBus

variable {E H : Type}

/-- The group whose handler the pass awaits. -/
def awaited (bus : InMemoryEventBus E H) : Option String :=
  match bus.draining with
  | some ⟨_, _, _, some d⟩ => if 0 < d.called then some d.key else none
  | _ => none

/-- The `finally` of `drain`. -/
def abandon (bus : InMemoryEventBus E H) : InMemoryEventBus E H := { bus with draining := none }

end InMemoryEventBus

namespace ObservedBus

variable {E H : Type}

/-- An action, if it can happen now; only the group that the pass awaits can throw. -/
def attempt (o : ObservedBus E H) : FallibleAction E H → Option (ObservedBus E H)
  | .act a => o.step a
  | .throws key => if o.bus.awaited = some key then some { o with bus := o.bus.abandon } else none

/-- A run of such actions; a sequence that cannot happen has none. -/
def attempts (o : ObservedBus E H) (actions : List (FallibleAction E H)) : Option (ObservedBus E H) :=
  actions.foldlM attempt o

/-- The group has not acknowledged all that was published on the topic since its log had the given
length. -/
def Waits (o : ObservedBus E H) (topic groupId : String) (length : Nat) : Prop :=
  length < (o.bus.history topic).length ∧
    ∃ n, o.bus.groupCursors.get (groupKey topic groupId) = some n ∧ n < (o.bus.history topic).length

/-- If anything has been published on the topic since its log had the given length, the group has received
the whole log. -/
def UpToDate (o : ObservedBus E H) (topic groupId : String) (length : Nat) : Prop :=
  length < (o.bus.history topic).length → o.Received topic groupId

end ObservedBus

namespace FallibleAction

variable {E H : Type}

/-- The topic on which something is published. -/
def publishTopic? : FallibleAction E H → Option String
  | .act a => a.publishTopic?
  | .throws _ => none

end FallibleAction

end SupplyChain
