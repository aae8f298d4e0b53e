import Mathlib.Algebra.Order.Ring.Int
import SupplyChain.Orders.Crash
import SupplyChain.Orders.Proofs.ConcurrentRunsProofs
import SupplyChain.Orders.Proofs.RecoveryProofs

/-!
# Proofs: what a recovery can undo after a crash

A recovery sees what the history records. The results say for which crash points that is enough.
-/

namespace SupplyChain

open Async InventoryService SagaOrchestrator

/-! ## What the history records -/

section Record

variable {f : Faults} {o o' : Order} {g : Progress}

theorem reservationsFromHistory_eq (o : Order) : reservationsFromHistory o =
    (((o.history.map fun e => (e.type, e.detail)).find? fun p => p.1 = .inventoryReserved).bind
      fun p => p.2.reservations).getD [] := by
  rw [reservationsFromHistory, List.find?_map]
  simp only [Function.comp_def]
  cases o.history.find? fun e => decide (e.type = .inventoryReserved) <;> rfl

theorem completedFromHistory_eq (o : Order) : completedFromHistory o =
    { paid := (o.history.map fun e => (e.type, e.detail)).any fun p => p.1 = .paymentCharged,
      shipped := (o.history.map fun e => (e.type, e.detail)).any fun p => p.1 = .shippingScheduled } := by
  simp [completedFromHistory, List.any_map, Function.comp_def]

theorem Records.fresh (h : Records o g.written o') (hist : o.history = []) :
    o'.history.map (fun e => (e.type, e.detail)) = g.written.map fun w => (w.type, w.detail) := by
  simpa [hist] using h.history

/-- The history records all reservations of the run or none. -/
theorem Stage.recorded (hs : Stage f o g) (h : Records o g.written o') (hist : o.history = []) :
    reservationsFromHistory o' =
      if Write.reserved g.taken ∈ g.written then g.taken.map Booking.reservation else [] := by
  rw [reservationsFromHistory_eq, h.fresh hist]
  rcases hs with ⟨-, hg⟩ | ⟨-, hg⟩ | ⟨-, hg⟩ | ⟨-, -, hg⟩ | ⟨hf, -, hg⟩ | ⟨hset⟩
  · simp [hg.written]
  · simp [hg.written, Write.reserved]
  · simp [hg.written, Write.reserved]
  · simp [hg.written, Write.reserved]
  · cases hf <;> simp [hg.written, Write.reserved, Write.compensating]
  · rcases hset with ⟨-, hg⟩ | ⟨hf, hg⟩
    · simp [hg.written, Write.reserved]
    · cases hf <;> simp [hg.written, Write.reserved, Write.compensating, Write.cancelled]

/-- The flags that a recovery reads say what is on record. -/
theorem Stage.completed_iff (hs : Stage f o g) (h : Records o g.written o') (hist : o.history = []) :
    ((completedFromHistory o').paid = true ↔ ∃ paymentId, Write.paid paymentId ∈ g.written) ∧
      ((completedFromHistory o').shipped = true ↔
        ∃ shipmentId, Write.scheduled shipmentId ∈ g.written) := by
  rw [completedFromHistory_eq, h.fresh hist]
  rcases hs with ⟨-, hg⟩ | ⟨-, hg⟩ | ⟨-, hg⟩ | ⟨-, -, hg⟩ | ⟨hf, -, hg⟩ | ⟨hset⟩
  · simp [hg.written]
  · simp [hg.written, Write.reserved, Write.paid, Write.scheduled]
  · simp [hg.written, Write.reserved, Write.paid, Write.scheduled]
  · simp [hg.written, Write.reserved, Write.paid, Write.scheduled]
  · cases hf <;> simp [hg.written, Write.reserved, Write.paid, Write.scheduled, Write.compensating]
  · rcases hset with ⟨-, hg⟩ | ⟨hf, hg⟩
    · simp [hg.written, Write.reserved, Write.paid, Write.scheduled, Write.confirmed]
    · cases hf <;> simp [hg.written, Write.reserved, Write.paid, Write.scheduled, Write.compensating,
        Write.cancelled]

/-- The stored status is terminal once the run is settled, and not before. -/
theorem Stage.terminal_iff (hs : Stage f o g) (h : Records o g.written o') (hc : o.status = .CREATED) :
    isTerminalStatus o'.status = true ↔ Settled f o g := by
  rw [h.status, hc]
  have hnot : ∀ {ws : List Write} {charged shipped : Bool} {rs cs : List ReservationId},
      g.Is ws charged shipped rs cs → isTerminalStatus ((ws.getLast?.map Write.status).getD .CREATED) =
        false → (isTerminalStatus ((g.written.getLast?.map Write.status).getD .CREATED) = true ↔
          Settled f o g) := by
    intro ws charged shipped rs cs hg hws
    rw [hg.written, hws]
    refine ⟨fun h => Bool.noConfusion h, fun hset => ?_⟩
    rw [← hws, ← hg.written]
    rcases hset with ⟨-, hg'⟩ | ⟨-, hg'⟩ <;> simp [hg'.written, Write.confirmed, Write.cancelled,
      isTerminalStatus]
  rcases hs with ⟨-, hg⟩ | ⟨-, hg⟩ | ⟨-, hg⟩ | ⟨-, -, hg⟩ | ⟨-, -, hg⟩ | ⟨hset⟩
  · exact hnot hg rfl
  · exact hnot hg rfl
  · exact hnot hg rfl
  · exact hnot hg rfl
  · exact hnot hg (by simp [Write.compensating, isTerminalStatus])
  · refine ⟨fun _ => hset, fun _ => ?_⟩
    rcases hset with ⟨-, hg'⟩ | ⟨-, hg'⟩ <;> simp [hg'.written, Write.confirmed, Write.cancelled,
      isTerminalStatus]

theorem Stage.fills (hs : Stage f o g) : ∃ lines todo, o.lines = lines ++ todo ∧ Fills lines g.taken := by
  have hall : Fills o.lines g.taken → ∃ lines todo, o.lines = lines ++ todo ∧ Fills lines g.taken :=
    fun h => ⟨o.lines, [], (List.append_nil _).symm, h⟩
  have hfailed : ∀ {before charged}, Failed f o g.taken before charged →
      ∃ lines todo, o.lines = lines ++ todo ∧ Fills lines g.taken := by
    intro before charged hf
    cases hf with
    | inventory _ h =>
      obtain ⟨lines, h⟩ := h
      exact ⟨lines, _, h⟩
    | payment _ h => exact hall h
    | shipping _ h => exact hall h
  rcases hs with ⟨⟨lines, h⟩, -⟩ | ⟨h, -⟩ | ⟨h, -⟩ | ⟨h, -, -⟩ | ⟨hf, -, -⟩ | ⟨⟨h, -⟩ | ⟨hf, -⟩⟩
  · exact ⟨lines, _, h⟩
  · exact hall h
  · exact hall h
  · exact hall h
  · exact hfailed hf
  · exact hall h
  · exact hfailed hf

theorem Stage.booked (hs : Stage f o g) {b : Booking} (hb : b ∈ g.taken) :
    ∃ l ∈ o.lines, l.item = b.item := by
  obtain ⟨lines, todo, hlines, hfill⟩ := hs.fills
  refine ⟨⟨b.reservation.sku, b.qty, b.reservation.warehouseId⟩, ?_, rfl⟩
  rw [hlines, show lines = _ from hfill]
  exact List.mem_append_left _ (List.mem_map_of_mem hb)

/-- A run releases or commits, never both. -/
theorem Stage.exclusive (hs : Stage f o g) : g.released = [] ∨ g.committed = [] := by
  rcases hs with ⟨-, hg⟩ | ⟨-, hg⟩ | ⟨-, hg⟩ | ⟨-, -, hg⟩ | ⟨-, -, hg⟩ | ⟨⟨-, hg⟩ | ⟨-, hg⟩⟩
  · exact Or.inl hg.released
  · exact Or.inl hg.released
  · exact Or.inl hg.released
  · exact Or.inl hg.released
  · exact Or.inr hg.committed
  · exact Or.inl hg.released
  · exact Or.inr hg.committed

end Record

/-! ## What a recovery cannot return -/

/-- A booking that a recovery cannot return: it is not released, and it is not on record or committed. -/
def Progress.Lost (g : Progress) (b : Booking) : Prop :=
  b.id ∉ g.released ∧ (Write.reserved g.taken ∉ g.written ∨ b.id ∈ g.committed)

instance (g : Progress) (b : Booking) : Decidable (g.Lost b) := by
  unfold Progress.Lost
  infer_instance

/-- What an interrupted run keeps of an item for good. -/
def Progress.lost (g : Progress) (item : String) : Int :=
  (g.taken.map fun b => if b.item = item ∧ g.Lost b then b.qty else 0).sum

theorem releasable_iff {g : Progress} : g.Releasable ↔ ∀ b ∈ g.taken, ¬ g.Lost b := by
  refine forall_congr' fun b => imp_congr_right fun _ => ?_
  unfold Progress.Lost
  tauto

theorem lost_eq_zero_iff {g : Progress} (hpos : ∀ b ∈ g.taken, 0 < b.qty) :
    (∀ b ∈ g.taken, g.lost b.item = 0) ↔ ∀ b ∈ g.taken, ¬ g.Lost b := by
  constructor
  · intro h b hb hlost
    have hterm : ∀ x ∈ g.taken.map fun c => if c.item = b.item ∧ g.Lost c then c.qty else 0, 0 ≤ x := by
      intro x hx
      obtain ⟨c, hc, rfl⟩ := List.mem_map.mp hx
      have := hpos c hc
      split <;> omega
    have hmem : b.qty ∈ g.taken.map fun c => if c.item = b.item ∧ g.Lost c then c.qty else 0 :=
      List.mem_map.mpr ⟨b, hb, by rw [if_pos ⟨rfl, hlost⟩]⟩
    have := List.single_le_sum hterm _ hmem
    have := hpos b hb
    have := h b hb
    unfold Progress.lost at this
    omega
  · intro h b _
    have hzero : ∀ c ∈ g.taken, (if c.item = b.item ∧ g.Lost c then c.qty else 0) = 0 :=
      fun c hc => if_neg fun hand => h c hc hand.2
    rw [Progress.lost, List.map_congr_left hzero]
    simp

/-! ## Recovery after a crash -/

section Recovery

variable {o : Order} {w : World} {P : StoppedRun}

/-- What is known wherever `run` of a fresh order is stopped. -/
theorem Passes.account (h : Starts o w) (hr : Passes o w P) :
    RunsInv (fun _ : Unit => o) w P.state P.aux ∧
      Stage (faults (fun _ : Unit => o) w ()) o (P.aux ()) ∧
      ∃ o', P.state.store.get o.id = some o' ∧ Records o (P.aux ()).written o' := by
  obtain ⟨hI, ho⟩ := h.toReady.reaches hr
  refine ⟨hI, ?_, hI.store.own ()⟩
  have hoi := ho ()
  cases hp : P.prog () with
  | ret a =>
    rw [hp] at hoi
    exact .settled hoi
  | throw e =>
    rw [hp] at hoi
    exact hoi.elim
  | call c k =>
    rw [hp] at hoi
    exact hoi.1.1

/-- The bookings of a stopped run: what is tied up is on hold and on record, or lost. -/
theorem RunsInv.tied_split {f : Faults} {g : Progress} {o' : Order}
    (hI : RunsInv (fun _ : Unit => o) w P.state fun _ => g) (hs : Stage f o g)
    (hrec : Records o g.written o') (hist : o.history = []) (item : String) :
    g.tied P.state.redis item =
      onHold P.state.redis (reservationsFromHistory o') item + g.lost item := by
  have hheld : ∀ b ∈ g.taken, b.id ∉ g.released → b.id ∉ g.committed →
      held P.state.redis b.id = some b.qty := fun b hb => hI.unshared.live (i := ()) hb
  have hgone : ∀ b ∈ g.taken, b.id ∈ g.released ∨ b.id ∈ g.committed →
      held P.state.redis b.id = none := fun b hb => hI.stock.gone (i := ()) hb
  have hexcl : ∀ b : Booking, b.id ∈ g.released → b.id ∉ g.committed := by
    intro b hr hc
    rcases hs.exclusive with h | h <;> simp_all
  rw [hs.recorded hrec hist]
  by_cases hw : Write.reserved g.taken ∈ g.written
  · rw [if_pos hw, onHold, List.map_map, Progress.tied, Progress.lost, ← List.sum_map_add]
    refine congrArg List.sum (List.map_congr_left fun b hb => ?_)
    simp only [Function.comp_apply, Booking.tied, Progress.Lost, hw, not_true, false_or]
    by_cases hi : b.item = item
    · by_cases hr : b.id ∈ g.released
      · simp [hr, hexcl b hr, hgone b hb (Or.inl hr)]
      · by_cases hc : b.id ∈ g.committed
        · simp [hi, hr, hc, hgone b hb (Or.inr hc)]
        · simp [hi, hr, hc, hheld b hb hr hc]
    · simp [hi]
  · rw [if_neg hw, Progress.tied, Progress.lost]
    simp only [onHold, List.map_nil, List.sum_nil, zero_add]
    refine congrArg List.sum (List.map_congr_left fun b hb => ?_)
    simp only [Booking.tied, Progress.Lost, hw, not_false_eq_true, true_or, and_true]
    by_cases hi : b.item = item
    · by_cases hr : b.id ∈ g.released
      · simp [hr, hexcl b hr, hgone b hb (Or.inl hr)]
      · by_cases hc : b.id ∈ g.committed
        · simp [hi, hr, hc]
        · simp [hi, hr, hc, hheld b hb hr hc]
    · simp [hi]

/-- The sweep releases what the stuck order has on record, and nothing else. -/
theorem Swept.redis_of_idle {w₁ w' : World} {o' : Order} (h : Swept w₁.store.nonTerminal w₁ w')
    (ho' : o' ∈ w₁.store.nonTerminal) (hid : o'.id = o.id) (hidle : OthersIdle o w₁) :
    w'.redis = releaseEach w₁.redis (reservationsFromHistory o') := by
  obtain ⟨before, after, hsplit⟩ := List.append_of_mem ho'
  have hnodup := w₁.store.nodup_nonTerminal
  rw [hsplit, List.map_append, List.map_cons, List.nodup_append, List.nodup_cons] at hnodup
  obtain ⟨-, ⟨hafter, -⟩, hbefore⟩ := hnodup
  have hdead : ∀ os : List Order, (∀ o₁ ∈ os, o₁ ∈ w₁.store.nonTerminal ∧ o₁.id ≠ o'.id) →
      ∀ r ∈ os.flatMap reservationsFromHistory, held w₁.redis r.reservationId = none := by
    intro os hos r hr
    obtain ⟨o₁, ho₁, hr⟩ := List.mem_flatMap.mp hr
    obtain ⟨hmem, hne⟩ := hos o₁ ho₁
    exact hidle o₁ hmem (hid ▸ hne) r hr
  have hpre := hdead before fun o₁ ho₁ => ⟨by simp [hsplit, ho₁], fun heq =>
    hbefore _ (List.mem_map_of_mem ho₁) _ List.mem_cons_self heq⟩
  have hpost := hdead after fun o₁ ho₁ => ⟨by simp [hsplit, ho₁], fun heq =>
    hafter (heq ▸ List.mem_map_of_mem ho₁)⟩
  rw [h.redis, hsplit, List.flatMap_append, List.flatMap_cons, releaseEach_append, releaseEach_append,
    releaseEach_dead hpre]
  refine releaseEach_dead fun r hr => ?_
  rw [held_releaseEach, hpost r hr, ite_self]

theorem Swept.redis_of_absent {w₁ w' : World} (h : Swept w₁.store.nonTerminal w₁ w')
    (hno : ∀ o' ∈ w₁.store.nonTerminal, o'.id ≠ o.id) (hidle : OthersIdle o w₁) :
    w'.redis = w₁.redis := by
  rw [h.redis]
  refine releaseEach_dead fun r hr => ?_
  obtain ⟨o₁, ho₁, hr⟩ := List.mem_flatMap.mp hr
  exact hidle o₁ ho₁ (hno o₁ ho₁) r hr

theorem Possession.none_iff {id : OrderId} {refused : OrderId → Bool}
    {base holdings : OrderId → Option String} {has : Unit → Prop}
    (h : Possession (fun _ : Unit => id) refused base holdings has) (hbase : base id = none) :
    holdings id = none ↔ ¬ has () := by
  rw [← Option.not_isSome_iff_eq_none, not_iff_not]
  exact ⟨fun hh => (h.only (i := ()) hh).resolve_right (by simp [hbase]), h.own⟩

/-- After the recovery of a stopped run the order is cancelled, the stock lacks what was lost, and a
charge or shipment is left exactly when it stood off the record. -/
theorem Passes.recovered (h : Starts o w) (hr : Passes o w P)
    (hnot : storedStatus P.state o.id ≠ some .CONFIRMED) :
    ∃ w' n, recoverStuckOrders.exec participate P.state = (w', .ok n) ∧
      storedStatus w' o.id = some .CANCELLED ∧
      (OthersIdle o P.state →
        ∀ item, units w'.redis item + (P.aux ()).lost item = units w.redis item) ∧
      (NothingHeld o w' ↔ (P.aux ()).OnRecord) := by
  obtain ⟨hI, hs, o', hget, hrec⟩ := hr.account h
  obtain ⟨w', hex, hswept⟩ := recoverStuckOrders_exec P.state
  have hlevel : ∀ item, units P.state.redis item + (P.aux ()).tied P.state.redis item =
      units w.redis item := fun item => by simpa using hI.stock.conserved item
  have hcharge := hI.payments.none_iff h.noCharge
  have hshipment := hI.shipping.none_iff h.noShipment
  refine ⟨w', _, hex, ?_⟩
  cases hterm : isTerminalStatus o'.status with
  | true =>
    -- the run had already cancelled the order itself
    have hno : ∀ o₁ ∈ P.state.store.nonTerminal, o₁.id ≠ o.id := by
      intro o₁ ho₁ heq
      obtain ⟨hget₁, hst₁⟩ := OrderStore.mem_nonTerminal.mp ho₁
      rw [heq, hget] at hget₁
      rw [← Option.some.inj hget₁, hterm] at hst₁
      cases hst₁
    obtain ⟨hget', hcharges', hshipments'⟩ := hswept.others o.id (by simpa using hno)
    rcases (hs.terminal_iff hrec h.created).mp hterm with ⟨hfill, hg⟩ | ⟨hfail, hg⟩
    · exact absurd (by simp [storedStatus, hget, hrec.status, hg.written, Write.confirmed]) hnot
    · have hlost : ∀ item, (P.aux ()).lost item = 0 := by
        intro item
        have hzero : ∀ b ∈ (P.aux ()).taken,
            (if b.item = item ∧ (P.aux ()).Lost b then b.qty else 0) = 0 := fun b hb =>
          if_neg fun hand => hand.2.1 (hg.released ▸ List.mem_map_of_mem hb)
        rw [Progress.lost, List.map_congr_left hzero]
        simp
      obtain ⟨-, htied, -⟩ := hI.cancelled (i := ()) hg
      refine ⟨?_, fun hidle item => ?_, ?_⟩
      · simp [storedStatus, hget', hget, hrec.status, hg.written, Write.cancelled]
      · have := htied item
        rw [hswept.redis_of_absent hno hidle, hlost, ← hlevel item]
        omega
      · rw [NothingHeld, hcharges', hshipments', hcharge, hshipment]
        simp [Progress.OnRecord, hg.charged, hg.shipped]
  | false =>
    have hid : o'.id = o.id := hrec.id
    have hmem : o' ∈ P.state.store.nonTerminal :=
      OrderStore.mem_nonTerminal.mpr ⟨hid ▸ hget, hterm⟩
    obtain ⟨o₂, hget₂, hstatus₂⟩ := hswept.cancelled o' hmem
    have hcharges' := hswept.charges o' hmem
    have hshipments' := hswept.shipments o' hmem
    rw [hid] at hget₂ hcharges' hshipments'
    refine ⟨by simp [storedStatus, hget₂, hstatus₂], fun hidle item => ?_, ?_⟩
    · have hsplit := RunsInv.tied_split (P := P) (g := P.aux ()) hI hs hrec h.noHistory item
      have hnodup : ((reservationsFromHistory o').map Reservation.reservationId).Nodup := by
        rw [hs.recorded hrec h.noHistory]
        split
        · simpa [Function.comp_def] using hI.stock.own ()
        · exact List.nodup_nil
      rw [hswept.redis_of_idle hmem hid hidle, units_releaseEach _ _ _ hnodup, ← hlevel item]
      omega
    · obtain ⟨hpaid, hshipped⟩ := hs.completed_iff hrec h.noHistory
      rw [NothingHeld, hcharges', hshipments', Progress.OnRecord, ← hpaid, ← hshipped]
      refine and_congr ?_ ?_
      · cases hp : (completedFromHistory o').paid <;> simp [hcharge]
      · cases hp : (completedFromHistory o').shipped <;> simp [hshipment]

/-! ### An order to crash -/

/-- An order of two units. -/
def soloOrder : Order := freshOrder "order" [⟨"sku", 2, "warehouse"⟩]

/-- A world with five of them. -/
def soloWorld : World := startWorld .pg [soloOrder] 5 (fun _ => false) fun _ => false

/-- The run after some of its calls. -/
def stopAfter (calls : Nat) : StoppedRun :=
  (sagas Unit).schedule ⟨soloWorld, fun _ => {}, fun _ => run soloOrder.id⟩ (List.replicate calls ())

theorem startWorld_starts (driver : StoreDriver) {qty : Int} (hqty : 0 ≤ qty)
    (failPayment failShipping : OrderId → Bool) :
    Starts soloOrder (startWorld driver [soloOrder] qty failPayment failShipping) where
  ids _ _ _ := rfl
  stored _ := OrderStore.get_put.trans (if_pos rfl)
  qty := by decide
  stock warehouseId sku := by
    rw [getAvailable_eq]
    show 0 ≤ units (setStock Redis.empty "warehouse" "sku" qty) _
    rw [setStock, units_set]
    split
    · exact hqty
    · exact le_refl 0
  vacant _ _ := rfl
  created := rfl
  noHistory := rfl
  noCharge := rfl
  noShipment := rfl

theorem solo_starts : Starts soloOrder soloWorld := startWorld_starts _ (by decide) _ _

theorem stopAfter_passes (calls : Nat) : Passes soloOrder soloWorld (stopAfter calls) :=
  reaches_schedule (fun _ _ _ _ => trivial) _ _

/-- After a crash anywhere in `run` of an order that is not confirmed, the sweep cancels the order, and
it restores the stock exactly when every granted reservation was released, or was on record and not
committed. -/
theorem recovery_restores_stock_iff (h : Starts o w) (hr : Passes o w P)
    (hidle : OthersIdle o P.state) (hnot : storedStatus P.state o.id ≠ some .CONFIRMED) :
    ∃ w' n, recoverStuckOrders.exec participate P.state = (w', .ok n) ∧
      (storedStatus w' o.id = some .CANCELLED ∧ StockRestored o w w' ↔ (P.aux ()).Releasable) := by
  obtain ⟨w', n, hex, hstatus, hlost, -⟩ := hr.recovered h hnot
  obtain ⟨hI, hs, -⟩ := hr.account h
  refine ⟨w', n, hex, ?_⟩
  rw [releasable_iff, ← lost_eq_zero_iff fun b hb => hI.unshared.pos (i := ()) hb]
  constructor
  · rintro ⟨-, hrestored⟩ b hb
    obtain ⟨l, hl, hitem⟩ := hs.booked hb
    have hstock : units w'.redis l.item = units w.redis l.item := by
      have hl' := hrestored l hl
      rwa [getAvailable_eq, getAvailable_eq] at hl'
    have := hlost hidle l.item
    rw [hitem] at this hstock
    omega
  · intro hzero
    refine ⟨hstatus, fun l hl => ?_⟩
    have hnone : (P.aux ()).lost l.item = 0 := by
      by_cases hex : ∃ b ∈ (P.aux ()).taken, b.item = l.item
      · obtain ⟨b, hb, hitem⟩ := hex
        exact hitem ▸ hzero b hb
      · have hterm : ∀ b ∈ (P.aux ()).taken,
            (if b.item = l.item ∧ (P.aux ()).Lost b then b.qty else 0) = 0 := fun b hb =>
          if_neg fun hand => hex ⟨b, hb, hand.1⟩
        rw [Progress.lost, List.map_congr_left hterm]
        simp
    rw [getAvailable_eq, getAvailable_eq]
    show units w'.redis l.item = units w.redis l.item
    have := hlost hidle l.item
    omega

/-- A crash after the reservation is recorded: the sweep gives it back. -/
theorem recovery_restores_recorded :
    ∃ w' n, recoverStuckOrders.exec participate (stopAfter 3).state = (w', .ok n) ∧
      storedStatus w' "order" = some .CANCELLED ∧ StockRestored soloOrder soloWorld w' := by
  have hidle : OthersIdle soloOrder (stopAfter 3).state := by
    unfold OthersIdle
    decide +kernel
  have hcond : ((stopAfter 3).aux ()).Releasable := by
    unfold Progress.Releasable
    decide +kernel
  obtain ⟨w', n, hex, hiff⟩ :=
    recovery_restores_stock_iff solo_starts (stopAfter_passes 3) hidle (by decide +kernel)
  exact ⟨w', n, hex, hiff.mpr hcond⟩

/-- A crash between the reservation and its record: the sweep does not know of it, and the units are
gone. -/
theorem recovery_loses_unrecorded : ¬ ∀ (o : Order) (w : World) (P : StoppedRun), Starts o w →
    Passes o w P → OthersIdle o P.state → storedStatus P.state o.id ≠ some .CONFIRMED →
    ∃ w' n, recoverStuckOrders.exec participate P.state = (w', .ok n) ∧
      storedStatus w' o.id = some .CANCELLED ∧ StockRestored o w w' := by
  intro hall
  have hidle : OthersIdle soloOrder (stopAfter 2).state := by
    unfold OthersIdle
    decide +kernel
  obtain ⟨w', n, hex, -, hrestored⟩ := hall soloOrder soloWorld (stopAfter 2) solo_starts
    (stopAfter_passes 2) hidle (by decide +kernel)
  have hstock := hrestored ⟨"sku", 2, "warehouse"⟩ (by decide)
  rw [show w' = (recoverStuckOrders.exec participate (stopAfter 2).state).1 by rw [hex]] at hstock
  exact absurd hstock (by decide +kernel)

/-- After a crash anywhere in `run` of an order that is not confirmed, the sweep cancels the order, and
no charge and no shipment is left exactly when those that stood were on record. -/
theorem recovery_leaves_nothing_held_iff (h : Starts o w) (hr : Passes o w P)
    (hnot : storedStatus P.state o.id ≠ some .CONFIRMED) :
    ∃ w' n, recoverStuckOrders.exec participate P.state = (w', .ok n) ∧
      storedStatus w' o.id = some .CANCELLED ∧ (NothingHeld o w' ↔ (P.aux ()).OnRecord) := by
  obtain ⟨w', n, hex, hstatus, -, hheld⟩ := hr.recovered h hnot
  exact ⟨w', n, hex, hstatus, hheld⟩

/-- A crash after the charge is recorded: the sweep refunds it. -/
theorem recovery_refunds_recorded :
    ∃ w' n, recoverStuckOrders.exec participate (stopAfter 6).state = (w', .ok n) ∧
      storedStatus w' "order" = some .CANCELLED ∧ NothingHeld soloOrder w' := by
  have hcond : ((stopAfter 6).aux ()).OnRecord :=
    ⟨fun _ => ⟨"pay_order", by decide +kernel⟩, fun hs => absurd hs (by decide +kernel)⟩
  obtain ⟨w', n, hex, hstatus, hiff⟩ :=
    recovery_leaves_nothing_held_iff solo_starts (stopAfter_passes 6) (by decide +kernel)
  exact ⟨w', n, hex, hstatus, hiff.mpr hcond⟩

/-- A crash between the charge and its record: the order is cancelled and stays charged. -/
theorem recovery_keeps_unrecorded_charge : ¬ ∀ (o : Order) (w : World) (P : StoppedRun), Starts o w →
    Passes o w P → storedStatus P.state o.id ≠ some .CONFIRMED →
    ∃ w' n, recoverStuckOrders.exec participate P.state = (w', .ok n) ∧
      (storedStatus w' o.id = some .CANCELLED → NothingHeld o w') := by
  intro hall
  obtain ⟨w', n, hex, hheld⟩ := hall soloOrder soloWorld (stopAfter 5) solo_starts
    (stopAfter_passes 5) (by decide +kernel)
  rw [show w' = (recoverStuckOrders.exec participate (stopAfter 5).state).1 by rw [hex]] at hheld
  exact absurd (hheld (by decide +kernel)).1 (by decide +kernel)

end Recovery

end SupplyChain
