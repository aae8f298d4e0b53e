import SupplyChain.Async.Outline
import SupplyChain.Orders.SagaOrchestrator

/-!
# What an execution has done so far

`Progress` sums up the calls that an execution of the saga has completed. It is computed from the calls
and their replies alone, so it also says where a crash hit. `Stage` and `Allowed` describe `run` as a
state machine: the progress it can have made, and the call it awaits there.
-/

namespace SupplyChain

open Async

/-- A reservation that was granted, and its quantity. -/
structure Booking where
  /-- What was granted. -/
  reservation : Reservation
  /-- How many units. -/
  qty : Int
  deriving DecidableEq

namespace Booking

/-- The id of the reservation. -/
abbrev id (b : Booking) : ReservationId := b.reservation.reservationId

/-- The item that is on hold. -/
abbrev item (b : Booking) : String :=
  InventoryService.itemName b.reservation.warehouseId b.reservation.sku

end Booking

/-- The item that the line asks for. -/
abbrev OrderLine.item (l : OrderLine) : String := InventoryService.itemName l.warehouseId l.sku

/-- A transition that was stored: the new status, and the type and detail of the event. -/
structure Write where
  /-- The new status. -/
  status : OrderStatus
  /-- The type of the event. -/
  type : EventType
  /-- The detail of the event. -/
  detail : EventDetail
  deriving DecidableEq

/-- The calls an execution has completed. -/
structure Progress where
  /-- The record of the order that it read first. -/
  seen : Option Order := none
  /-- The snapshots it was handed by `nonTerminal`. -/
  listed : List Order := []
  /-- The reservations it was granted. -/
  taken : List Booking := []
  /-- The reservations it has asked to release. -/
  released : List ReservationId := []
  /-- The reservations it has asked to commit. -/
  committed : List ReservationId := []
  /-- Whether it has charged and not refunded. -/
  charged : Bool := false
  /-- Whether it has scheduled and not cancelled a shipment. -/
  shipped : Bool := false
  /-- Whether it has refunded. -/
  refunded : Bool := false
  /-- Whether it has cancelled a shipment. -/
  recalled : Bool := false
  /-- The transitions it has stored. -/
  written : List Write := []

namespace Progress

/-- What an execution has done after one more call. -/
def note (g : Progress) : (c : Call) → c.Reply → Progress
  | .get _, r => { g with seen := g.seen <|> r }
  | .nonTerminal, os => { g with listed := g.listed ++ os }
  | .fields _, order => { g with seen := g.seen <|> some order }
  | .updateStatus _ status type detail, _ =>
    { g with written := g.written ++ [⟨status, type, detail⟩] }
  | .reserve w s qty, .accepted id _ => { g with taken := g.taken ++ [⟨⟨w, s, id⟩, qty⟩] }
  | .release _ _ id, _ => { g with released := g.released ++ [id] }
  | .commit _ _ id, _ => { g with committed := g.committed ++ [id] }
  | .charge _ _, .ok _ => { g with charged := true }
  | .refund _, _ => { g with charged := false, refunded := true }
  | .schedule _ _, .ok _ => { g with shipped := true }
  | .cancel _, _ => { g with shipped := false, recalled := true }
  | _, _ => g

/-- The status it has stored last. -/
def status (g : Progress) : Option OrderStatus := g.written.getLast?.map Write.status

/-- Everything but the reservations and what was read. -/
structure Is (g : Progress) (written : List Write) (charged shipped : Bool)
    (released committed : List ReservationId) : Prop where
  /-- The transitions it has stored. -/
  written : g.written = written
  /-- Whether its charge stands. -/
  charged : g.charged = charged
  /-- Whether its shipment stands. -/
  shipped : g.shipped = shipped
  /-- What it has asked to release. -/
  released : g.released = released
  /-- What it has asked to commit. -/
  committed : g.committed = committed

end Progress

/-- The bookings fill the lines, one each, in order. -/
def Fills (lines : List OrderLine) (bs : List Booking) : Prop :=
  lines = bs.map fun b => ⟨b.reservation.sku, b.qty, b.reservation.warehouseId⟩

/-! ## The transitions that `run` stores -/

namespace Write

/-- All lines are on hold. -/
def reserved (bs : List Booking) : Write :=
  ⟨.INVENTORY_RESERVED, .inventoryReserved, { reservations := some (bs.map Booking.reservation) }⟩

/-- The charge was made. -/
def paid (paymentId : String) : Write :=
  ⟨.PAYMENT_CHARGED, .paymentCharged, { paymentId := some paymentId }⟩

/-- The shipment was scheduled. -/
def scheduled (shipmentId : String) : Write :=
  ⟨.SHIPPING_SCHEDULED, .shippingScheduled, { shipmentId := some shipmentId }⟩

/-- Everything is committed. -/
def confirmed : Write := ⟨.CONFIRMED, .confirmed, {}⟩

/-- Something failed. -/
def compensating : Write := ⟨.COMPENSATING, .compensating, {}⟩

/-- Everything is undone. -/
def cancelled (detail : EventDetail) : Write := ⟨.CANCELLED, .cancelled, detail⟩

end Write

/-! ## `run` as a state machine -/

/-- What must be the case when a participant turns `run` down. -/
structure Faults where
  /-- When a reservation is rejected. -/
  short : Prop
  /-- When a charge is declined. -/
  declined : Prop
  /-- When no courier is found. -/
  noCourier : Prop

/-- What `run` has stored when it fails, and whether the charge may still stand. -/
inductive Failed (f : Faults) (o : Order) (bs : List Booking) : List Write → Bool → Prop where
  /-- A reservation was rejected; those before it stand. -/
  | inventory (hf : f.short) {todo : List OrderLine}
      (h : ∃ lines, o.lines = lines ++ todo ∧ Fills lines bs) : Failed f o bs [] false
  /-- The charge was declined. -/
  | payment (hf : f.declined) (h : Fills o.lines bs) : Failed f o bs [.reserved bs] false
  /-- No courier was found. -/
  | shipping (hf : f.noCourier) (h : Fills o.lines bs) (paymentId : String) (charged : Bool) :
      Failed f o bs [.reserved bs, .paid paymentId] charged

/-- Everything is committed or everything is undone, and recorded so. -/
inductive Settled (f : Faults) (o : Order) (g : Progress) : Prop where
  /-- The lines are filled, and all of it is committed. -/
  | confirmed (h : Fills o.lines g.taken) {paymentId shipmentId : String}
      (hg : g.Is [.reserved g.taken, .paid paymentId, .scheduled shipmentId, .confirmed] true true []
        (g.taken.map Booking.id))
  /-- What was taken is released, and nothing is charged or shipped. -/
  | cancelled {before : List Write} {charged : Bool} (h : Failed f o g.taken before charged)
      {detail : EventDetail}
      (hg : g.Is (before ++ [.compensating, .cancelled detail]) false false
        (g.taken.map Booking.id) [])

/-- The progress that `run` of the order `o` can have made. -/
inductive Stage (f : Faults) (o : Order) (g : Progress) : Prop where
  /-- Reserving, or about to record the reservations. -/
  | reserving {todo : List OrderLine} (h : ∃ lines, o.lines = lines ++ todo ∧ Fills lines g.taken)
      (hg : g.Is [] false false [] [])
  /-- The reservations are recorded; the charge may have been made. -/
  | reserved (h : Fills o.lines g.taken) {charged : Bool}
      (hg : g.Is [.reserved g.taken] charged false [] [])
  /-- The charge is recorded; the shipment may have been scheduled. -/
  | paid (h : Fills o.lines g.taken) {paymentId : String} {shipped : Bool}
      (hg : g.Is [.reserved g.taken, .paid paymentId] true shipped [] [])
  /-- The shipment is recorded, and the first reservations are committed. -/
  | scheduled (h : Fills o.lines g.taken) {paymentId shipmentId : String} {done todo : List Booking}
      (hd : g.taken = done ++ todo)
      (hg : g.Is [.reserved g.taken, .paid paymentId, .scheduled shipmentId] true true []
        (done.map Booking.id))
  /-- After a failure, the first reservations are released. -/
  | undoing {before : List Write} {charged : Bool} (h : Failed f o g.taken before charged)
      {done todo : List Booking} (hd : g.taken = done ++ todo)
      (hg : g.Is (before ++ [.compensating]) charged false (done.map Booking.id) [])
  /-- At its end. -/
  | settled (h : Settled f o g)

/-- The transition that `run` stores next. -/
inductive Next (f : Faults) (o : Order) (g : Progress) : Write → Prop where
  /-- The reservations, when every line has one. -/
  | reserved (h : Fills o.lines g.taken) (hg : g.Is [] false false [] []) :
      Next f o g (.reserved g.taken)
  /-- The charge, once it is made. -/
  | paid (hg : g.Is [.reserved g.taken] true false [] []) (paymentId : String) :
      Next f o g (.paid paymentId)
  /-- The shipment, once it is scheduled. -/
  | scheduled {paymentId : String} (hg : g.Is [.reserved g.taken, .paid paymentId] true true [] [])
      (shipmentId : String) : Next f o g (.scheduled shipmentId)
  /-- The confirmation, once everything is committed. -/
  | confirmed {paymentId shipmentId : String}
      (hg : g.Is [.reserved g.taken, .paid paymentId, .scheduled shipmentId] true true []
        (g.taken.map Booking.id)) : Next f o g .confirmed
  /-- The failure, with what was stored before it. -/
  | compensating {before : List Write} {charged : Bool} (h : Failed f o g.taken before charged)
      (hg : g.Is before charged false [] []) : Next f o g .compensating
  /-- The cancellation, once everything is released. -/
  | cancelled {before : List Write} {charged : Bool} (h : Failed f o g.taken before charged)
      (hg : g.Is (before ++ [.compensating]) false false (g.taken.map Booking.id) [])
      (detail : EventDetail) : Next f o g (.cancelled detail)

/-- The call that `run` of the order `o` awaits after it has done `g`. -/
def Allowed (f : Faults) (o : Order) (g : Progress) : Call → Prop
  | .get id => id = o.id ∧ (g.written = [] ∧ g.taken = [] ∨ Settled f o g)
  | .reserve w s qty => g.Is [] false false [] [] ∧
    ∃ lines todo, o.lines = lines ++ ⟨s, qty, w⟩ :: todo ∧ Fills lines g.taken
  | .updateStatus id status type detail => id = o.id ∧ Next f o g ⟨status, type, detail⟩
  | .publish id type detail =>
    id = o.id ∧ ∃ status, g.written.getLast? = some ⟨status, type, detail⟩
  | .charge id _ => id = o.id ∧ g.Is [.reserved g.taken] false false [] []
  | .schedule id _ =>
    id = o.id ∧ ∃ paymentId, g.Is [.reserved g.taken, .paid paymentId] true false [] []
  | .commit w s id => ∃ done b todo, g.taken = done ++ b :: todo ∧ b.reservation = ⟨w, s, id⟩ ∧
    ∃ paymentId shipmentId, g.Is [.reserved g.taken, .paid paymentId, .scheduled shipmentId] true true
      [] (done.map Booking.id)
  | .release w s id => ∃ done b todo, g.taken = done ++ b :: todo ∧ b.reservation = ⟨w, s, id⟩ ∧
    ∃ before, g.Is (before ++ [.compensating]) false false (done.map Booking.id) []
  | .refund id => id = o.id ∧
    ∃ paymentId, g.Is [.reserved g.taken, .paid paymentId, .compensating] true false [] []
  | _ => False

/-- What the replies to `run` say: a stored order keeps its lines, and a refusal has its reason. -/
def Replies (f : Faults) (o : Order) : (c : Call) → c.Reply → Prop
  | .get _, r => ∃ o', r = some o' ∧ o'.id = o.id ∧ o'.lines = o.lines
  | .reserve _ _ _, .rejected _ _ => f.short
  | .charge _ _, .failed _ => f.declined
  | .schedule _ _, .failed _ => f.noCourier
  | _, _ => True

/-- The contract of `run` of the order `o`. It never throws. -/
def runContract (f : Faults) (o : Order) : Contract participants SagaError Progress where
  pre g c := Stage f o g ∧ Allowed f o g c
  ans _ := Replies f o
  thrown _ _ := False

end SupplyChain
