import SupplyChain.Orders.Proofs.CrashProofs

/-!
# Proofs: what a rejected call leaves behind

Nothing in `run` catches a rejection, so `run` leaves the order as it is when a call rejects.
-/

namespace SupplyChain

open Async InventoryService SagaOrchestrator

section Last

variable {f : Faults} {o : Order} {g : Progress} {c : Call}

/-- A run is settled exactly when the status it stored last is terminal. -/
theorem Stage.settled_iff_last (hs : Stage f o g) :
    Settled f o g ↔ ∃ w, g.written.getLast? = some w ∧ isTerminalStatus w.status = true := by
  constructor
  · intro hset
    rcases hset with ⟨-, hg⟩ | ⟨-, hg⟩ <;>
      simp [hg.written, Write.confirmed, Write.cancelled, isTerminalStatus]
  · rintro ⟨w, hlast, hterm⟩
    rcases hs with ⟨-, hg⟩ | ⟨-, hg⟩ | ⟨-, hg⟩ | ⟨-, -, hg⟩ | ⟨-, -, hg⟩ | ⟨hset⟩
    · simp [hg.written] at hlast
    · simp [hg.written] at hlast
      simp [← hlast, Write.reserved, isTerminalStatus] at hterm
    · simp [hg.written] at hlast
      simp [← hlast, Write.paid, isTerminalStatus] at hterm
    · simp [hg.written] at hlast
      simp [← hlast, Write.scheduled, isTerminalStatus] at hterm
    · simp [hg.written] at hlast
      simp [← hlast, Write.compensating, isTerminalStatus] at hterm
    · exact hset

/-- The event type that was stored last tells whether the status is terminal. -/
theorem Stage.last_type (hs : Stage f o g) {w : Write} (hlast : g.written.getLast? = some w) :
    isTerminalStatus w.status = true ↔ w.type = .confirmed ∨ w.type = .cancelled := by
  rcases hs with ⟨-, hg⟩ | ⟨-, hg⟩ | ⟨-, hg⟩ | ⟨-, -, hg⟩ | ⟨-, -, hg⟩ | ⟨⟨-, hg⟩ | ⟨-, hg⟩⟩
  · simp [hg.written] at hlast
  · simp [hg.written] at hlast
    simp [← hlast, Write.reserved, isTerminalStatus]
  · simp [hg.written] at hlast
    simp [← hlast, Write.paid, isTerminalStatus]
  · simp [hg.written] at hlast
    simp [← hlast, Write.scheduled, isTerminalStatus]
  · simp [hg.written] at hlast
    simp [← hlast, Write.compensating, isTerminalStatus]
  · simp [hg.written] at hlast
    simp [← hlast, Write.confirmed, isTerminalStatus]
  · simp [hg.written] at hlast
    simp [← hlast, Write.cancelled, isTerminalStatus]

/-- A run that is still to store something has not stored a terminal status. -/
theorem Next.unsettled {w : Write} (hn : Next f o g w) :
    ¬ ∃ v, g.written.getLast? = some v ∧ isTerminalStatus v.status = true := by
  rintro ⟨v, hlast, hterm⟩
  have hfailed : ∀ {before : List Write} {charged : Bool}, Failed f o g.taken before charged →
      g.written = before → False := by
    intro before charged hf hw
    rw [hw] at hlast
    cases hf with
    | inventory => simp at hlast
    | payment =>
      simp at hlast
      simp [← hlast, Write.reserved, isTerminalStatus] at hterm
    | shipping =>
      simp at hlast
      simp [← hlast, Write.paid, isTerminalStatus] at hterm
  cases hn with
  | reserved h hg => simp [hg.written] at hlast
  | paid hg =>
    simp [hg.written] at hlast
    simp [← hlast, Write.reserved, isTerminalStatus] at hterm
  | scheduled hg =>
    simp [hg.written] at hlast
    simp [← hlast, Write.paid, isTerminalStatus] at hterm
  | confirmed hg =>
    simp [hg.written] at hlast
    simp [← hlast, Write.scheduled, isTerminalStatus] at hterm
  | compensating hf hg => exact hfailed hf hg.written
  | cancelled hf hg =>
    simp [hg.written] at hlast
    simp [← hlast, Write.compensating, isTerminalStatus] at hterm

/-- Before the call took effect: only a publication can come after the terminal status. -/
theorem Allowed.last_iff (hs : Stage f o g) (hp : Allowed f o g c) (hc : CanReject c) :
    (∃ w, g.written.getLast? = some w ∧ isTerminalStatus w.status = true) ↔ AfterTheEnd c false := by
  cases c with
  | updateStatus id status type detail =>
    exact iff_of_false hp.2.unsettled fun h => Bool.noConfusion h.1
  | publish id type detail =>
    obtain ⟨-, status, hlast⟩ := hp
    have htype := hs.last_type hlast
    simp only [hlast, Option.some.injEq, exists_eq_left', AfterTheEnd]
    exact htype
  | reserve =>
    obtain ⟨hg, -⟩ := hp
    simp [hg.written, AfterTheEnd]
  | charge =>
    obtain ⟨-, hg⟩ := hp
    simp [hg.written, AfterTheEnd, Write.reserved, isTerminalStatus]
  | schedule =>
    obtain ⟨-, paymentId, hg⟩ := hp
    simp [hg.written, AfterTheEnd, Write.paid, isTerminalStatus]
  | commit =>
    obtain ⟨done, b, todo, -, -, paymentId, shipmentId, hg⟩ := hp
    simp [hg.written, AfterTheEnd, Write.scheduled, isTerminalStatus]
  | _ => exact hc.elim

/-- After the call took effect: it may also have stored the terminal status itself. -/
theorem Allowed.last_note_iff (hs : Stage f o g) (hp : Allowed f o g c) (hc : CanReject c)
    (r : c.Reply) :
    (∃ w, (g.note c r).written.getLast? = some w ∧ isTerminalStatus w.status = true) ↔
      AfterTheEnd c true := by
  cases c with
  | updateStatus id status type detail => simp [Progress.note, AfterTheEnd]
  | publish id type detail => exact Allowed.last_iff hs hp hc
  | reserve =>
    have hw : (g.note _ r).written = g.written := by cases r <;> rfl
    rw [hw]
    exact Allowed.last_iff hs hp hc
  | charge =>
    have hw : (g.note _ r).written = g.written := by cases r <;> rfl
    rw [hw]
    exact Allowed.last_iff hs hp hc
  | schedule =>
    have hw : (g.note _ r).written = g.written := by cases r <;> rfl
    rw [hw]
    exact Allowed.last_iff hs hp hc
  | commit => exact Allowed.last_iff hs hp hc
  | _ => exact hc.elim

end Last

variable {o : Order} {w : World} {P : StoppedRun}

/-- A stopped run has finished exactly when it is settled. -/
theorem Passes.finished_iff (h : Starts o w) (hr : Passes o w P) :
    Finished o w P.state ↔
      ∃ v, (P.aux ()).written.getLast? = some v ∧ isTerminalStatus v.status = true := by
  obtain ⟨hI, hs, o', hget, hrec⟩ := hr.account h
  rw [← hs.settled_iff_last, ← hs.terminal_iff hrec h.created]
  constructor
  · rintro ⟨status, hstatus, hterm, -⟩
    rw [storedStatus, hget, Option.map_some, Option.some.injEq] at hstatus
    rwa [hstatus]
  · intro hterm
    refine ⟨o'.status, by rw [storedStatus, hget]; rfl, hterm, fun hne => ?_⟩
    rcases (hs.terminal_iff hrec h.created).mp hterm with ⟨-, hg⟩ | ⟨hf, hg⟩
    · exact absurd (by simp [hrec.status, hg.written, Write.confirmed]) hne
    · obtain ⟨-, htied, -⟩ := hI.cancelled (i := ()) hg
      refine ⟨fun l _ => ?_, (hI.payments.none_iff h.noCharge).mpr (by simp [hg.charged]),
        (hI.shipping.none_iff h.noShipment).mpr (by simp [hg.shipped])⟩
      have hconserved : units P.state.redis (itemName l.warehouseId l.sku) +
          (P.aux ()).tied P.state.redis (itemName l.warehouseId l.sku) =
            units w.redis (itemName l.warehouseId l.sku) := by
        simpa using hI.stock.conserved (itemName l.warehouseId l.sku)
      have := htied (itemName l.warehouseId l.sku)
      rw [getAvailable_eq, getAvailable_eq]
      omega

/-- When a call of `run` rejects, the order is finished exactly when the call comes after the terminal
status was stored, or stored it itself. -/
theorem rejection_finishes_iff (h : Starts o w) (hr : Passes o w P) {c : Call}
    {k : c.Reply → Saga Order} (hp : P.prog () = .call c k) (hc : CanReject c) (landed : Bool) :
    Finished o w (afterRejection c landed P.state) ↔ AfterTheEnd c landed := by
  obtain ⟨hI, hs, -⟩ := hr.account h
  have ho := (h.toReady.reaches hr).2 ()
  rw [hp] at ho
  have hallowed : Allowed (faults (fun _ : Unit => o) w ()) o (P.aux ()) c := ho.1.2
  cases landed with
  | false => exact (hr.finished_iff h).trans (Allowed.last_iff hs hallowed hc)
  | true =>
    obtain ⟨w', r, hcall, -, -⟩ := hI.resolves h.ids h.qty (i := ()) hallowed
    have hstep : (sagas Unit).Step P ⟨w', Function.update P.aux () ((P.aux ()).note c r),
        Function.update P.prog () (k r)⟩ := .ok () hp trivial hcall
    have hfinished := Passes.finished_iff h (Relation.ReflTransGen.tail hr hstep)
    simp only [Function.update_self] at hfinished
    rw [afterRejection, if_pos rfl, hcall]
    exact hfinished.trans (Allowed.last_note_iff hs hallowed hc r)

/-- The publication of `order.confirmed` rejects: the order is confirmed all the same. -/
theorem rejection_of_last_publication :
    Finished soloOrder soloWorld (afterRejection (.publish "order" .confirmed {}) false
      (stopAfter 12).state) := by
  obtain ⟨k, hp⟩ : ∃ k, (stopAfter 12).prog () = .call (.publish "order" .confirmed {}) k := ⟨_, rfl⟩
  exact (rejection_finishes_iff solo_starts (stopAfter_passes 12) hp trivial false).mpr (Or.inl rfl)

/-- The charge rejects: the order stays behind with its reservation on hold. -/
theorem rejection_leaves_unfinished : ¬ ∀ (o : Order) (w : World) (P : StoppedRun), Starts o w →
    Passes o w P → ∀ (c : Call) (k : c.Reply → Saga Order), P.prog () = .call c k → CanReject c →
      ∀ landed, Finished o w (afterRejection c landed P.state) := by
  intro hall
  obtain ⟨k, hp⟩ : ∃ k, (stopAfter 4).prog () = .call (.charge "order" 100) k := ⟨_, rfl⟩
  obtain ⟨status, hstatus, hterm, -⟩ := hall soloOrder soloWorld (stopAfter 4) solo_starts
    (stopAfter_passes 4) (.charge "order" 100) k hp trivial false
  have hreserved : storedStatus (stopAfter 4).state "order" = some .INVENTORY_RESERVED := by
    decide +kernel
  rw [show storedStatus (afterRejection (.charge "order" 100) false (stopAfter 4).state) soloOrder.id =
    some .INVENTORY_RESERVED from hreserved, Option.some.injEq] at hstatus
  rw [← hstatus] at hterm
  cases hterm

end SupplyChain
