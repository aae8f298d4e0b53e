import SupplyChain.Async.Proofs.ExecProofs
import SupplyChain.Inventory.Proofs.InventoryServiceProofs
import SupplyChain.Orders.Proofs.OrderStoreProofs
import SupplyChain.Orders.Recovery

/-!
# Proofs: a recovery that runs alone
-/

namespace SupplyChain

open Async InventoryService SagaOrchestrator

/-! ## Releasing a list of reservations -/

section Release

variable {redis : Redis} {r : Reservation} {rs : List Reservation} {item : String}

theorem releaseEach_append (rs ss : List Reservation) :
    releaseEach redis (rs ++ ss) = releaseEach (releaseEach redis rs) ss := by
  simp [releaseEach]

theorem releaseEach_dead (h : ∀ r ∈ rs, held redis r.reservationId = none) :
    releaseEach redis rs = redis := by
  induction rs with
  | nil => rfl
  | cons r rs ih =>
    have hr : (InventoryService.release redis r.warehouseId r.sku r.reservationId).1 = redis := by
      rw [release_of_none (h r List.mem_cons_self)]
    rw [releaseEach, List.foldl_cons, hr]
    exact ih fun s hs => h s (List.mem_cons_of_mem _ hs)

/-- Afterwards none of the listed reservations is live, and the others are as before. -/
theorem held_releaseEach (rs : List Reservation) (x : ReservationId) :
    ∀ redis, held (releaseEach redis rs) x =
      if x ∈ rs.map Reservation.reservationId then none else held redis x := by
  induction rs with
  | nil => exact fun redis => rfl
  | cons r rs ih =>
    intro redis
    obtain ⟨redis', status, hrel, hheld, -⟩ :=
      release_spec redis r.warehouseId r.sku r.reservationId
    have hstep : releaseEach redis (r :: rs) = releaseEach redis' rs := by
      simp only [releaseEach, List.foldl_cons, hrel]
    rw [hstep, ih, hheld]
    by_cases hx : x = r.reservationId <;> simp [hx]

/-- Every listed reservation that is live returns its quantity, exactly once. -/
theorem units_releaseEach (rs : List Reservation) (item : String) :
    ∀ redis, (rs.map Reservation.reservationId).Nodup →
      units (releaseEach redis rs) item = units redis item + onHold redis rs item := by
  induction rs with
  | nil =>
    intro redis _
    simp [releaseEach, onHold]
  | cons r rs ih =>
    intro redis hnodup
    rw [List.map_cons, List.nodup_cons] at hnodup
    obtain ⟨redis', status, hrel, hheld, hunits⟩ :=
      release_spec redis r.warehouseId r.sku r.reservationId
    have hstep : releaseEach redis (r :: rs) = releaseEach redis' rs := by
      simp only [releaseEach, List.foldl_cons, hrel]
    have hrest : onHold redis' rs item = onHold redis rs item := by
      refine congrArg List.sum (List.map_congr_left fun s hs => ?_)
      have hne : s.reservationId ≠ r.reservationId := fun heq =>
        hnodup.1 (heq ▸ List.mem_map_of_mem hs)
      simp only [hheld, if_neg hne]
    have hcons : onHold redis (r :: rs) item =
        (if r.item = item then (held redis r.reservationId).getD 0 else 0) + onHold redis rs item := by
      simp [onHold]
    have hr : units redis' item = units redis item +
      if r.item = item then (held redis r.reservationId).getD 0 else 0 := hunits item
    rw [hstep, ih redis' hnodup.2, hrest, hcons, hr]
    omega

end Release

/-! ## The parts of a recovery -/

variable {w : World} {order cur : Order}

theorem transition_exec {id : OrderId} (h : w.store.get id = some cur) (status : OrderStatus)
    (type : EventType) (detail : EventDetail) :
    ∃ w' cur', (transition id status type detail).exec participate w = (w', .ok ()) ∧
      w'.redis = w.redis ∧ w'.payments = w.payments ∧ w'.shipping = w.shipping ∧
      w'.store.driver = w.store.driver ∧ w'.store.get id = some cur' ∧ cur'.status = status ∧
      ∀ x, x ≠ id → w'.store.get x = w.store.get x := by
  obtain ⟨store', hst, hdriver, hget⟩ :=
    OrderStore.updateStatus_of_get h status ⟨type, w.clock, detail⟩
  have hcall : participate (.updateStatus id status type detail) w =
      ({ w with store := store' }, .ok ()) := by
    simp only [participate, hst]
  let event : DomainEvent := ⟨type, id, detail, w.clock, id⟩
  refine ⟨{ w with store := store', published := w.published ++ [event] }, _, ?_, rfl, rfl, rfl,
    hdriver, (hget id).trans (if_pos rfl), rfl, fun x hx => by rw [hget, if_neg hx]⟩
  unfold transition
  rw [exec_bind_ok (exec_await_ok hcall)]
  rfl

theorem releaseAll_exec (rs : List Reservation) :
    ∀ w, (releaseAll rs).exec participate w =
      ({ w with redis := releaseEach w.redis rs }, .ok ()) := by
  induction rs with
  | nil => exact fun w => rfl
  | cons r rs ih =>
    intro w
    obtain ⟨redis', status, hrel, -⟩ := release_spec w.redis r.warehouseId r.sku r.reservationId
    have hstep : releaseEach w.redis (r :: rs) = releaseEach redis' rs := by
      simp only [releaseEach, List.foldl_cons, hrel]
    have hcall : participate (.release r.warehouseId r.sku r.reservationId) w =
        ({ w with redis := redis' }, .ok status) := by
      simp only [participate, hrel]
    have hsplit : releaseAll (r :: rs) =
        (await (.release r.warehouseId r.sku r.reservationId) >>= fun _ => releaseAll rs) := by
      simp [releaseAll]
    rw [hsplit, exec_bind_ok (exec_await_ok hcall), ih, hstep]

theorem compensate_exec (order : Order) (h : w.store.get order.id = some cur) (rs : List Reservation)
    (completed : Completed) :
    ∃ w' cur', (compensate order rs completed).exec participate w = (w', .ok ()) ∧
      w'.redis = releaseEach w.redis rs ∧
      (w'.payments.charges = fun id =>
        if id = order.id ∧ completed.paid = true then none else w.payments.charges id) ∧
      (w'.shipping.shipments = fun id =>
        if id = order.id ∧ completed.shipped = true then none else w.shipping.shipments id) ∧
      w'.store.driver = w.store.driver ∧
      w'.store.get order.id = some cur' ∧ ∀ x, x ≠ order.id → w'.store.get x = w.store.get x := by
  obtain ⟨w₁, cur₁, hex, hredis, hpay, hship, hdriver, hget, -, hothers⟩ :=
    transition_exec h .COMPENSATING .compensating {}
  unfold compensate
  rw [exec_bind_ok hex]
  let shipping₁ := w₁.shipping.cancel order.id
  let payments₁ := (w₁.payments.refund order.id).1
  obtain ⟨paid, shipped⟩ := completed
  cases shipped <;> cases paid
  · refine ⟨_, cur₁, releaseAll_exec rs w₁, ?_, ?_, ?_, hdriver, hget, hothers⟩ <;>
      simp [hredis, hpay, hship]
  · refine ⟨_, cur₁, releaseAll_exec rs { w₁ with payments := payments₁ }, ?_, ?_, ?_, hdriver, hget,
      hothers⟩ <;>
      simp [payments₁, hredis, hpay, hship, PaymentGateway.refund_charges]
  · refine ⟨_, cur₁, releaseAll_exec rs { w₁ with shipping := shipping₁ }, ?_, ?_, ?_, hdriver, hget,
      hothers⟩ <;>
      simp [shipping₁, hredis, hpay, hship, ShippingProvider.cancel]
  · refine ⟨_, cur₁, releaseAll_exec rs { w₁ with shipping := shipping₁, payments := payments₁ },
      ?_, ?_, ?_, hdriver, hget, hothers⟩ <;>
      simp [shipping₁, payments₁, hredis, hpay, hship, PaymentGateway.refund_charges,
        ShippingProvider.cancel]

theorem recoverStuck_exec (order : Order) (h : w.store.get order.id = some cur)
    (hstatus : isTerminalStatus (w.store.fields order).status = false) :
    ∃ w' o, (recoverStuck order).exec participate w = (w', .ok o) ∧
      Recovered (w.store.fields order) w w' := by
  have hid : (w.store.fields order).id = order.id := by
    rcases w.store.fields_cases order with hf | hf
    · rw [hf]
    · exact OrderStore.id_of_get hf
  obtain ⟨w₁, cur₁, hcomp, hredis, hcharges, hshipments, hdriver, hget, hothers⟩ :=
    compensate_exec order h (reservationsFromHistory (w.store.fields order))
      (completedFromHistory (w.store.fields order))
  obtain ⟨w₂, cur₂, hfail, hredis₂, hpay₂, hship₂, hdriver₂, hget₂, hstatus₂, hothers₂⟩ :=
    transition_exec hget .CANCELLED .cancelled
      (EventDetail.spread { reason := some "RECOVERED_AFTER_RESTART" }
        { previousStatus := some (w₁.store.fields order).status })
  refine ⟨w₂, cur₂, ?_, ?_⟩
  · unfold recoverStuck
    rw [exec_bind_ok (exec_await_ok (r := w.store.fields order) rfl), hstatus]
    simp only [Bool.false_eq_true, if_false]
    rw [exec_bind_ok hcomp, exec_bind_ok (exec_await_ok (r := w₁.store.fields order) rfl), fail,
      exec_bind_ok hfail, mustGet,
      exec_bind_ok (exec_await_ok (r := w₂.store.get order.id) rfl), hget₂]
    rfl
  · refine
      { redis := by rw [hredis₂, hredis]
        charges := by rw [hpay₂, hcharges, hid]
        shipments := by rw [hship₂, hshipments, hid]
        driver := hdriver₂.trans hdriver
        cancelled := ⟨cur₂, hid ▸ hget₂, hstatus₂⟩
        others := ?_ }
    intro x hx
    rw [hid] at hx
    rw [hothers₂ x hx, hothers x hx]

/-! ## The sweep -/

/-- One more order is recovered, and then the others. -/
theorem Recovered.swept {os : List Order} {w₁ w' : World} (h : Recovered order w w₁)
    (hrest : Swept os w₁ w') (hnew : order.id ∉ os.map Order.id) : Swept (order :: os) w w' := by
  have hne : ∀ entry ∈ os, entry.id ≠ order.id := fun entry he heq =>
    hnew (heq ▸ List.mem_map_of_mem he)
  obtain ⟨hget, hcharges, hshipments⟩ := hrest.others order.id hnew
  refine
    { redis := ?redis
      driver := hrest.driver.trans h.driver
      cancelled := ?cancelled
      charges := ?charges
      shipments := ?shipments
      others := ?others }
  case redis => rw [List.flatMap_cons, releaseEach_append, hrest.redis, h.redis]
  case cancelled =>
    intro entry he
    rcases List.mem_cons.mp he with rfl | he
    · rw [hget]
      exact h.cancelled
    · exact hrest.cancelled entry he
  case charges =>
    intro entry he
    rcases List.mem_cons.mp he with rfl | he
    · rw [hcharges, h.charges]
      simp
    · rw [hrest.charges entry he, h.charges]
      simp [hne entry he]
  case shipments =>
    intro entry he
    rcases List.mem_cons.mp he with rfl | he
    · rw [hshipments, h.shipments]
      simp
    · rw [hrest.shipments entry he, h.shipments]
      simp [hne entry he]
  case others =>
    intro id hid
    rw [List.map_cons, List.mem_cons, not_or] at hid
    obtain ⟨hget', hcharges', hshipments'⟩ := hrest.others id hid.2
    refine ⟨hget'.trans (h.others id hid.1), ?_, ?_⟩
    · rw [hcharges', h.charges]
      simp [hid.1]
    · rw [hshipments', h.shipments]
      simp [hid.1]

theorem recoverEach_exec (os : List Order) :
    ∀ w : World, (os.map Order.id).Nodup →
      (∀ o ∈ os, w.store.get o.id = some o ∧ isTerminalStatus o.status = false) →
      ∃ w', (recoverEach os).exec participate w = (w', .ok ()) ∧ Swept os w w' := by
  induction os with
  | nil =>
    intro w _ _
    exact ⟨w, rfl, rfl, rfl, by simp, by simp, by simp, fun _ _ => ⟨rfl, rfl, rfl⟩⟩
  | cons o os ih =>
    intro w hnodup hstored
    rw [List.map_cons, List.nodup_cons] at hnodup
    obtain ⟨hget, hstatus⟩ := hstored o List.mem_cons_self
    have hfields := OrderStore.fields_of_get hget
    obtain ⟨w₁, o₁, hex, hrec⟩ := recoverStuck_exec o hget (by rwa [hfields])
    rw [hfields] at hrec
    obtain ⟨w', hrest, hswept⟩ := ih w₁ hnodup.2 fun o' ho' => by
      have hne : o'.id ≠ o.id := fun heq => hnodup.1 (heq ▸ List.mem_map_of_mem ho')
      rw [hrec.others o'.id hne]
      exact hstored o' (List.mem_cons_of_mem _ ho')
    refine ⟨w', ?_, hrec.swept hswept hnodup.1⟩
    have hsplit : recoverEach (o :: os) = (recoverStuck o >>= fun _ => recoverEach os) := by
      simp [recoverEach]
    rw [hsplit, exec_bind_ok hex, hrest]

/-- The sweep alone recovers exactly the orders that are not terminal. -/
theorem recoverStuckOrders_exec (w : World) :
    ∃ w', recoverStuckOrders.exec participate w = (w', .ok w.store.nonTerminal.length) ∧
      Swept w.store.nonTerminal w w' := by
  obtain ⟨w', hex, hswept⟩ := recoverEach_exec w.store.nonTerminal w w.store.nodup_nonTerminal
    fun o ho => OrderStore.mem_nonTerminal.mp ho
  refine ⟨w', ?_, hswept⟩
  unfold recoverStuckOrders
  rw [exec_bind_ok (exec_await_ok (r := w.store.nonTerminal) rfl), exec_bind_ok hex]
  rfl

end SupplyChain
