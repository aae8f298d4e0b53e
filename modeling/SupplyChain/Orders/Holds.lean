import SupplyChain.Inventory.Ledger
import SupplyChain.Orders.Progress

/-!
# Reservations between their grant and their commit

One `run` of an order, with time passing and others acting on the inventory between its calls. Everything
that happens is recorded, the last first, and what became of a reservation is read off this record.
-/

namespace SupplyChain

open Async InventoryService SagaOrchestrator

/-- The call changes the stock or a reservation. -/
def Call.touchesInventory : Call → Bool
  | .reserve .. | .release .. | .commit .. => true
  | _ => false

/-- A call of the run with its reply, or an operation that is not the run's. -/
inductive Happening where
  /-- A call of the run, and its reply. -/
  | call (c : Call) (r : c.Reply)
  /-- An operation of somebody else on the inventory, or time passing. -/
  | other (op : Op)

namespace Happening

/-- The time that passes. -/
def ms : Happening → Nat
  | .other (.elapse ms) => ms
  | _ => 0

/-- The run is granted the reservation. -/
def grants (id : ReservationId) : Happening → Bool
  | .call (.reserve ..) (.accepted id' _) => id' = id
  | _ => false

/-- Somebody else releases or commits the reservation. -/
def resolves (id : ReservationId) : Happening → Bool
  | .other (.release _ _ id') | .other (.commit _ _ id') => id' = id
  | _ => false

/-- The run commits a reservation, and the answer. -/
def commit? : Happening → Option (ReservationId × ReleaseStatus)
  | .call (.commit _ _ id) r => some (id, r)
  | _ => none

/-- The run stores that the order is confirmed. -/
def confirms (id : OrderId) : Happening → Bool
  | .call (.updateStatus id' .CONFIRMED _ _) _ => id' = id
  | _ => false

end Happening

/-- What has happened, the last first. -/
abbrev Timeline := List Happening

namespace Timeline

/-- What has happened since the reservation was granted. -/
def since (id : ReservationId) (tl : Timeline) : Timeline := tl.takeWhile fun h => !h.grants id

/-- The time that has passed, in milliseconds. -/
def elapsed (tl : Timeline) : Nat := (tl.map Happening.ms).sum

/-- Nobody else has resolved the reservation since it was granted. -/
def Unresolved (tl : Timeline) (id : ReservationId) : Prop := ∀ h ∈ since id tl, h.resolves id = false

/-- The time to live of a reservation of the saga, in milliseconds. -/
def ttl : Nat := 1000 * DEFAULT_RESERVATION_TTL_SECONDS.toNat

/-- Since the reservation was granted, less time has passed than it has to live, and nobody else has
resolved it. -/
def Kept (tl : Timeline) (id : ReservationId) : Prop := elapsed (since id tl) < ttl ∧ Unresolved tl id

instance (tl : Timeline) (id : ReservationId) : Decidable (tl.Kept id) :=
  inferInstanceAs (Decidable (_ < _ ∧ ∀ h ∈ since id tl, h.resolves id = false))

/-- The run has stored that the order is confirmed. -/
def Confirms (tl : Timeline) (id : OrderId) : Prop := tl.any (Happening.confirms id) = true

/-- Every commit call was answered `COMMITTED`. -/
def AllCommitted (tl : Timeline) : Prop := ∀ x ∈ tl.filterMap Happening.commit?, x.2 = .COMMITTED

/-- Every reservation was kept until the run committed it. -/
def AllKept : Timeline → Prop
  | [] => True
  | h :: tl => (∀ x ∈ h.commit?, Kept tl x.1) ∧ AllKept tl

instance decidableAllKept : (tl : Timeline) → Decidable tl.AllKept
  | [] => .isTrue trivial
  | h :: tl =>
    have := decidableAllKept tl
    inferInstanceAs (Decidable ((∀ x ∈ h.commit?, Kept tl x.1) ∧ AllKept tl))

/-- A commit was answered `COMMITTED` exactly if the reservation had been kept. -/
def Answered : Timeline → Prop
  | [] => True
  | h :: tl => (∀ x ∈ h.commit?, (x.2 = .COMMITTED ↔ Kept tl x.1)) ∧ Answered tl

end Timeline

/-- An operation of others: the ids that they draw are not those of the run's source. -/
def Foreign (uuids : UuidSource) : Op → Prop
  | .reserve _ _ _ _ id => ∀ n, uuids.draw n ≠ id
  | _ => True

/-- The order's record has kept its lines. -/
def KeepsLines (id : OrderId) (w w' : World) : Prop :=
  ∀ o, w.store.get id = some o → ∃ o', w'.store.get id = some o' ∧ o'.lines = o.lines

/-- One execution that concerns the order `id`, with operations of others in between. The others may do
anything else as well, as long as the order keeps its lines. -/
def timeline (id : OrderId) : System participants Unit SagaError (World × Timeline) Progress where
  handle c s :=
    match participate c s.1 with
    | (w, .ok r) => ((w, .call c r :: s.2), .ok r)
    | (w, .error e) => ((w, s.2), .error e)
  note := Progress.note
  guard _ _ _ _ := True
  env s s' := ∃ op, Foreign s.1.uuids op ∧ s'.1.redis = (op.run s.1.redis).1 ∧ s'.2 = .other op :: s.2 ∧
    s'.1.uuids = s.1.uuids ∧ s.1.drawn ≤ s'.1.drawn ∧ KeepsLines id s.1 s'.1

/-- What the server has under the key of a reservation that the run was granted and has not resolved. -/
def Tracked (id : ReservationId) (tl : Timeline) (redis : Redis) : Prop :=
  (tl.Unresolved id ∧ ∃ qty deadline, redis.entries (reservationKey id) = some ⟨qty, some deadline⟩ ∧
    deadline + Timeline.elapsed (tl.since id) = redis.now + Timeline.ttl) ∨
  (¬ tl.Unresolved id ∧ held redis id = none)

/-- The record tells of every reservation whether it is live, and of every commit how it was answered. -/
structure HoldsInv (o : Order) (w : World) (tl : Timeline) (g : Progress) : Prop where
  /-- The order is stored, with its lines. -/
  stored : ∃ o', w.store.get o.id = some o' ∧ o'.lines = o.lines
  /-- The ids of bookings have been drawn. -/
  drawn : ∀ b ∈ g.taken, ∃ n, n < w.drawn ∧ b.id = w.uuids.draw n
  /-- No two of them are one. -/
  own : (g.taken.map Booking.id).Nodup
  /-- Until the run resolves it, a booking is live exactly as long as the record says. -/
  tracked : ∀ b ∈ g.taken, b.id ∉ g.released → b.id ∉ g.committed → Tracked b.id tl w.redis
  /-- The commits were answered by what the record says. -/
  answered : Timeline.Answered tl

end SupplyChain
