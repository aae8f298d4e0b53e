import SupplyChain.Inventory.ScriptServer
import SupplyChain.Orders.Proofs.AuditTrailProofs
import SupplyChain.Orders.Proofs.RecoveryProofs
import SupplyChain.Orders.Sweep

/-!
# Proofs: one sweep undoes what is on record

The sweep gives back what each stuck order records, each live reservation once, touches nothing else and
leaves nothing for a second sweep.
-/

namespace SupplyChain

open Async InventoryService SagaOrchestrator

/-! ## Reading a well-written history -/

/-- A trail says at most once, and first, that the inventory was reserved. -/
theorem AuditTrail.reserved_first {types : List EventType} (h : AuditTrail types) :
    .inventoryReserved ∉ types.tail := by
  obtain ⟨forward, closing, rfl, hforward, hclosing⟩ := h
  have hclose : ∀ {n : Nat} {e : EventType}, e ∈ List.replicate n EventType.compensating →
      e = .compensating := fun he => List.eq_of_mem_replicate he
  have hnot : .inventoryReserved ∉ closing := by
    intro hmem
    cases hclosing with
    | «open» => cases hmem
    | confirmed _ => simp at hmem
    | compensating n => exact absurd (hclose hmem) (by decide)
    | cancelled n =>
      rcases List.mem_append.mp hmem with hmem | hmem
      · exact absurd (hclose hmem) (by decide)
      · simp at hmem
  rcases mem_forward_prefix hforward with rfl | rfl | rfl | rfl
  · exact fun hmem => hnot (List.mem_of_mem_tail hmem)
  · exact hnot
  · simpa using hnot
  · simpa [forwardTypes] using hnot

/-- `reservationsFromHistory` finds all that is recorded. -/
theorem Order.WellRecorded.reservations_eq {o : Order} (h : o.WellRecorded) :
    reservationsFromHistory o = o.recorded := by
  have hfirst := h.trail.reserved_first
  have honly := h.reservations
  unfold reservationsFromHistory recorded
  rw [types] at hfirst
  cases hhist : o.history with
  | nil => rfl
  | cons e es =>
    rw [hhist] at hfirst honly
    -- only the first event can record reservations
    have hrest : es.flatMap (fun e => e.detail.reservations.getD []) = [] := by
      rw [List.flatMap_eq_nil_iff]
      intro e' he'
      cases hres : e'.detail.reservations with
      | none => rfl
      | some rs =>
        have htype := honly e' (List.mem_cons_of_mem e he') (by rw [hres]; rfl)
        exact absurd (htype ▸ List.mem_map_of_mem he') hfirst
    have hno : ∀ e' ∈ es, ¬ e'.type = .inventoryReserved := fun e' he' htype =>
      hfirst (htype ▸ List.mem_map_of_mem he')
    rw [List.flatMap_cons, hrest, List.append_nil, List.find?_cons]
    by_cases htype : e.type = .inventoryReserved
    · simp [htype]
    · have hnone : e.detail.reservations = none := by
        rw [← Option.not_isSome_iff_eq_none]
        exact fun hsome => htype (honly e List.mem_cons_self hsome)
      have hfind : es.find? (fun e => decide (e.type = .inventoryReserved)) = none := by
        rw [List.find?_eq_none]
        intro e' he'
        simpa using hno e' he'
      simp [htype, hfind, hnone]

theorem paid_iff (o : Order) : (completedFromHistory o).paid = true ↔ o.Records .paymentCharged := by
  simp [completedFromHistory, Order.Records]

theorem shipped_iff (o : Order) :
    (completedFromHistory o).shipped = true ↔ o.Records .shippingScheduled := by
  simp [completedFromHistory, Order.Records]

/-! ## One sweep -/

variable {w w' : World} {os : List Order}

/-- What one recovered order gives back, and what all of them do. -/
theorem givenBack_of_cases {type : EventType} {holdings holdings' : OrderId → Option String}
    (hids : (os.map Order.id).Nodup)
    (hin : ∀ o ∈ os, holdings' o.id = if o.Records type then none else holdings o.id)
    (hout : ∀ id, id ∉ os.map Order.id → holdings' id = holdings id) (id : OrderId) :
    holdings' id = givenBack os type holdings id := by
  unfold givenBack
  by_cases hid : id ∈ os.map Order.id
  · obtain ⟨o, ho, rfl⟩ := List.mem_map.mp hid
    have hiff : (∃ o' ∈ os, o'.id = o.id ∧ o'.Records type) ↔ o.Records type := by
      constructor
      · rintro ⟨o', ho', heq, hrec⟩
        obtain rfl := List.inj_on_of_nodup_map hids ho' ho heq
        exact hrec
      · exact fun hrec => ⟨o, ho, rfl, hrec⟩
    rw [hin o ho]
    simp only [hiff]
  · have hnone : ¬ ∃ o ∈ os, o.id = id ∧ o.Records type := by
      rintro ⟨o, ho, rfl, -⟩
      exact hid (List.mem_map_of_mem ho)
    rw [hout id hid, if_neg hnone]

theorem Swept.allRecovered (h : Swept w.store.nonTerminal w w')
    (hist : ∀ o ∈ w.store.nonTerminal, o.WellRecorded)
    (hids : ((w.store.nonTerminal.flatMap Order.recorded).map Reservation.reservationId).Nodup) :
    AllRecovered w.store.nonTerminal w w' := by
  have hnodup := w.store.nodup_nonTerminal
  have hrecorded : w.store.nonTerminal.flatMap reservationsFromHistory =
      w.store.nonTerminal.flatMap Order.recorded := by
    rw [List.flatMap_def, List.flatMap_def]
    exact congrArg List.flatten (List.map_congr_left fun o ho => (hist o ho).reservations_eq)
  have hredis := h.redis
  rw [hrecorded] at hredis
  -- an order that the sweep did not list is as it was
  have hother : ∀ {id o}, w.store.get id = some o → isTerminalStatus o.status = true →
      id ∉ w.store.nonTerminal.map Order.id := by
    intro id o hget hterm hmem
    obtain ⟨o', ho', rfl⟩ := List.mem_map.mp hmem
    obtain ⟨hget', hstatus⟩ := OrderStore.mem_nonTerminal.mp ho'
    rw [hget, Option.some.injEq] at hget'
    rw [hget', hstatus] at hterm
    cases hterm
  refine
    { none_stuck := ?none_stuck
      terminal := fun hget hterm => ((h.others _ (hother hget hterm)).1).trans hget
      cancelled := ?cancelled
      stock := ?stock
      held := ?held
      charges := ?charges
      shipments := ?shipments }
  case none_stuck =>
    rw [List.eq_nil_iff_forall_not_mem]
    intro o ho
    obtain ⟨hget, hstatus⟩ := OrderStore.mem_nonTerminal.mp ho
    by_cases hmem : o.id ∈ w.store.nonTerminal.map Order.id
    · obtain ⟨entry, hentry, hid⟩ := List.mem_map.mp hmem
      obtain ⟨o', hget', hcancelled⟩ := h.cancelled entry hentry
      rw [hid, hget, Option.some.injEq] at hget'
      rw [hget', hcancelled] at hstatus
      cases hstatus
    · rw [(h.others o.id hmem).1] at hget
      exact hmem (List.mem_map_of_mem (OrderStore.mem_nonTerminal.mpr ⟨hget, hstatus⟩))
  case cancelled =>
    intro o ho
    obtain ⟨o', hget', hcancelled⟩ := h.cancelled o ho
    rw [storedStatus, hget', Option.map_some, hcancelled]
  case stock =>
    intro warehouseId sku
    rw [getAvailable_eq, getAvailable_eq, hredis]
    exact units_releaseEach _ _ _ hids
  case held =>
    intro id
    rw [hredis]
    exact held_releaseEach _ id _
  case charges =>
    refine givenBack_of_cases hnodup (fun o ho => ?_) fun id hid => (h.others id hid).2.1
    rw [h.charges o ho]
    simp only [paid_iff]
  case shipments =>
    refine givenBack_of_cases hnodup (fun o ho => ?_) fun id hid => (h.others id hid).2.2
    rw [h.shipments o ho]
    simp only [shipped_iff]

/-- With no order left to recover, a sweep does nothing. -/
theorem recoverStuckOrders_idle (h : w.store.nonTerminal = []) :
    recoverStuckOrders.exec participate w = (w, .ok 0) := by
  unfold recoverStuckOrders
  rw [exec_bind_ok (exec_await_ok (r := w.store.nonTerminal) rfl), h]
  rfl

/-- A sweep over any store whose histories are well written, with distinct reservation ids, recovers all
stuck orders and nothing else, and a second sweep changes nothing. -/
theorem sweep_recovers_all (hist : ∀ o ∈ w.store.nonTerminal, o.WellRecorded)
    (hids : ((w.store.nonTerminal.flatMap Order.recorded).map Reservation.reservationId).Nodup) :
    ∃ w', recoverStuckOrders.exec participate w = (w', .ok w.store.nonTerminal.length) ∧
      AllRecovered w.store.nonTerminal w w' ∧
      recoverStuckOrders.exec participate w' = (w', .ok 0) := by
  obtain ⟨w', hex, hswept⟩ := recoverStuckOrders_exec w
  have hall := hswept.allRecovered hist hids
  exact ⟨w', hex, hall, recoverStuckOrders_idle hall.none_stuck⟩

/-- An order that got stuck with one reservation on record. -/
def leftOrder (id : OrderId) (reservationId : ReservationId) (status : OrderStatus)
    (later : List OrderEvent) : Order :=
  { freshOrder id [] with
    status
    history := ⟨.inventoryReserved, 0, { reservations := some [⟨"warehouse", "sku", reservationId⟩] }⟩ ::
      later }

/-- One order stopped after it had reserved and one while it was compensating; one was never stuck. -/
def leftWorld : World :=
  { startWorld .inMemory
      [leftOrder "A" "a" .INVENTORY_RESERVED [],
        leftOrder "B" "b" .COMPENSATING [⟨.compensating, 0, {}⟩],
        { freshOrder "C" [] with status := .CANCELLED }] 5 (fun _ => false) fun _ => false with
    redis := (Deployment.server.runAll [.reserve "warehouse" "sku" 2 900 "a", .reserve "warehouse" "sku" 1 900 "b"]
      (setStock Redis.empty "warehouse" "sku" 5)).1 }

theorem leftWorld_recovers : ∃ w', recoverStuckOrders.exec participate leftWorld = (w', .ok 2) ∧
    getAvailable leftWorld.redis "warehouse" "sku" = 2 ∧
    getAvailable w'.redis "warehouse" "sku" = 5 := by
  have hstuck : leftWorld.store.nonTerminal = [leftOrder "A" "a" .INVENTORY_RESERVED [],
      leftOrder "B" "b" .COMPENSATING [⟨.compensating, 0, {}⟩]] := by decide +kernel
  have hist : ∀ o ∈ leftWorld.store.nonTerminal, o.WellRecorded := by
    rw [hstuck]
    intro o ho
    rcases List.mem_cons.mp ho with rfl | ho
    · exact ⟨⟨[.inventoryReserved], [], rfl, by decide, .open⟩, by decide⟩
    · obtain rfl := List.mem_singleton.mp ho
      exact ⟨⟨[.inventoryReserved], [.compensating], rfl, by decide, .compensating 0⟩, by decide⟩
  have hids : ((leftWorld.store.nonTerminal.flatMap Order.recorded).map
      Reservation.reservationId).Nodup := by
    rw [hstuck]
    decide
  obtain ⟨w', hex, hall, -⟩ := sweep_recovers_all hist hids
  refine ⟨w', ?_, by decide +kernel, ?_⟩
  · rw [hex, hstuck]
    rfl
  · rw [hall.stock, hstuck]
    decide +kernel

end SupplyChain
