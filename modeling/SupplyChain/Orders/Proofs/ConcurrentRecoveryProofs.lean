import Mathlib.Data.Fintype.BigOperators
import SupplyChain.Orders.Proofs.AccountsProofs
import SupplyChain.Orders.Proofs.CrashProofs
import SupplyChain.Orders.Proofs.RecoverOutlineProofs
import SupplyChain.Orders.Races

/-!
# Proofs: concurrent recoveries of one order agree with a single one
-/

namespace SupplyChain

open Async InventoryService SagaOrchestrator

variable {κ : Type} {o o' : Order}

/-! ## Records that were extended -/

theorem Extends.refl (o : Order) : Extends o o := ⟨rfl, [], (List.append_nil _).symm, by simp⟩

theorem Extends.append (h : Extends o o') {e : OrderEvent}
    (he : e.type = .compensating ∨ e.type = .cancelled) (status : OrderStatus) :
    Extends o { o' with status, history := o'.history ++ [e] } := by
  obtain ⟨hrecord, extra, hhist, hextra⟩ := h
  refine ⟨by rw [hrecord], extra ++ [e], by simp [hhist], fun e' he' => ?_⟩
  rcases List.mem_append.mp he' with he' | he'
  · exact hextra e' he'
  · rw [List.mem_singleton.mp he']
    exact he

/-- Compensations and cancellations record nothing that a recovery reads. -/
theorem Extends.records (h : Extends o o') : reservationsFromHistory o' = reservationsFromHistory o ∧
    completedFromHistory o' = completedFromHistory o := by
  obtain ⟨-, extra, hhist, hextra⟩ := h
  have hno : ∀ e ∈ extra, e.type ≠ .inventoryReserved ∧ e.type ≠ .paymentCharged ∧
      e.type ≠ .shippingScheduled := by
    intro e he
    rcases hextra e he with he | he <;> simp [he]
  have hfind : extra.find? (fun h => h.type = .inventoryReserved) = none := by
    rw [List.find?_eq_none]
    intro e he
    simp [(hno e he).1]
  have hpaid : extra.any (fun h => h.type = .paymentCharged) = false := by
    rw [List.any_eq_false]
    intro e he
    simp [(hno e he).2.1]
  have hshipped : extra.any (fun h => h.type = .shippingScheduled) = false := by
    rw [List.any_eq_false]
    intro e he
    simp [(hno e he).2.2]
  constructor
  · rw [reservationsFromHistory, reservationsFromHistory, hhist, List.find?_append, hfind, Option.or_none]
  · rw [completedFromHistory, completedFromHistory, hhist, List.any_append, List.any_append, hpaid,
      hshipped, Bool.or_false, Bool.or_false]

/-! ## The parts of the account under a call -/

theorem update_withStopped [DecidableEq κ] (stopped : Progress) (gs : κ → Progress) (j : κ)
    (g : Progress) : withStopped stopped (Function.update gs j g) =
      Function.update (withStopped stopped gs) (some j) g := by
  funext i
  cases i with
  | none => rfl
  | some k =>
    by_cases hk : k = j
    · subst hk
      simp [withStopped]
    · have : some k ≠ some j := fun h => hk (Option.some.inj h)
      simp [withStopped, Function.update_of_ne hk, Function.update_of_ne this]

section GivenBack

variable {id : OrderId} {may : Prop} {base holdings : OrderId → Option String} {gave gave' : κ → Prop}

theorem GivenBack.congr (h : GivenBack id may base holdings gave) (hg : ∀ j, gave' j ↔ gave j) :
    GivenBack id may base holdings gave' where
  allowed hj := h.allowed ((hg _).mp hj)
  kept hno := h.kept fun j hj => hno j ((hg j).mpr hj)
  gone hj := h.gone ((hg _).mp hj)

/-- One more execution gives the holding back. -/
theorem GivenBack.give (h : GivenBack id may base holdings gave) {j : κ} (hmay : may)
    (hj : gave' j) :
    GivenBack id may base (fun x => if x = id then none else holdings x) gave' where
  allowed _ := hmay
  kept hno := absurd hj (hno j)
  gone _ := by
    by_cases hex : ∃ k, gave k
    · obtain ⟨k, hk⟩ := hex
      rw [h.gone hk]
      funext x
      by_cases hx : x = id <;> simp [hx]
    · rw [h.kept fun k hk => hex ⟨k, hk⟩]

/-- A holding that some execution has given back if it may be given back. -/
theorem GivenBack.eq [Decidable may] (h : GivenBack id may base holdings gave) {j : κ}
    (hj : may → gave j) : holdings = fun x => if x = id ∧ may then none else base x := by
  by_cases hmay : may
  · rw [h.gone (hj hmay)]
    simp [hmay]
  · rw [h.kept fun k hk => hmay (h.allowed hk)]
    simp [hmay]

end GivenBack

/-! ## Every awaited call of a recovery resolves and keeps the account -/

section Recoveries

variable [Fintype κ] [DecidableEq κ] {base w : World} {gs : κ → Progress}

section Frame

variable {j : κ} {g : Progress}

theorem RecoveriesInv.stock_frame (h : RecoveriesInv o base w gs) (ht : g.taken = (gs j).taken)
    (hr : g.released = (gs j).released) (hc : g.committed = (gs j).committed) :
    StockInv
      (fun item => units base.redis item + onHold base.redis (reservationsFromHistory o) item)
      (held base.redis) (fun _ => False) w.redis
      (withStopped (crashedRun o base.redis) (Function.update gs j g)) := by
  rw [update_withStopped]
  exact h.stock.congr (update_proj (i := some j) Progress.taken ht)
    (update_proj (i := some j) Progress.released hr) (update_proj (i := some j) Progress.committed hc)

theorem RecoveriesInv.freed_frame (h : RecoveriesInv o base w gs) {k : κ} {r : Reservation}
    (hmem : r ∈ reservationsFromHistory o)
    (hk : r.reservationId ∈ (Function.update gs j g k).released)
    (hr : g.released = (gs j).released) :
    held w.redis r.reservationId = none := by
  rw [update_proj (i := j) Progress.released hr] at hk
  exact h.freed hmem hk

theorem RecoveriesInv.stored_frame (h : RecoveriesInv o base w gs) (hw : g.written = (gs j).written) :
    ∃ o', w.store.get o.id = some o' ∧ Extends o o' ∧
      ((∀ k, (Function.update gs j g k).written = []) ∧ o'.status = o.status ∨
        ∃ k, (Function.update gs j g k).status = some o'.status) := by
  obtain ⟨o', hget, hext, hstatus⟩ := h.stored
  refine ⟨o', hget, hext, ?_⟩
  have hstat : g.status = (gs j).status := by rw [Progress.status, hw, Progress.status]
  rcases hstatus with ⟨hnone, hst⟩ | ⟨k, hk⟩
  · exact Or.inl ⟨fun k => by rw [update_proj (i := j) Progress.written hw]; exact hnone k, hst⟩
  · exact Or.inr ⟨k, by rw [update_proj (i := j) Progress.status hstat]; exact hk⟩

omit [Fintype κ] in
theorem wrote_update (hw : (gs j).written ≠ [] → g.written ≠ []) (h : ∃ k, (gs k).written ≠ []) :
    ∃ k, (Function.update gs j g k).written ≠ [] := by
  obtain ⟨k, hk⟩ := h
  refine ⟨k, ?_⟩
  by_cases hkj : k = j
  · subst hkj
    rw [Function.update_self]
    exact hw hk
  · rwa [Function.update_of_ne hkj]

theorem RecoveriesInv.seen_frame (h : RecoveriesInv o base w gs) {k : κ} {entry : Order}
    (hk : (Function.update gs j g k).seen = some entry) (hs : g.seen = (gs j).seen)
    (hw : (gs j).written ≠ [] → g.written ≠ []) :
    reservationsFromHistory entry = reservationsFromHistory o ∧
      completedFromHistory entry = completedFromHistory o ∧
      (isTerminalStatus entry.status = true → ∃ k, (Function.update gs j g k).written ≠ []) := by
  rw [update_proj (i := j) Progress.seen hs] at hk
  obtain ⟨hres, hcomp, hterm⟩ := h.seen hk
  exact ⟨hres, hcomp, fun ht => wrote_update hw (hterm ht)⟩

theorem RecoveriesInv.payments_frame (h : RecoveriesInv o base w gs)
    (hr : g.refunded = (gs j).refunded) :
    GivenBack o.id ((completedFromHistory o).paid = true) base.payments.charges
      w.payments.charges fun k => (Function.update gs j g k).refunded = true :=
  h.payments.congr fun k => by rw [update_proj (i := j) Progress.refunded hr]

theorem RecoveriesInv.shipping_frame (h : RecoveriesInv o base w gs)
    (hr : g.recalled = (gs j).recalled) :
    GivenBack o.id ((completedFromHistory o).shipped = true) base.shipping.shipments
      w.shipping.shipments fun k => (Function.update gs j g k).recalled = true :=
  h.shipping.congr fun k => by rw [update_proj (i := j) Progress.recalled hr]

/-- A call that leaves the account alone. -/
theorem RecoveriesInv.frame (h : RecoveriesInv o base w gs) (ht : g.taken = (gs j).taken)
    (hr : g.released = (gs j).released) (hc : g.committed = (gs j).committed)
    (hs : g.seen = (gs j).seen) (hw : g.written = (gs j).written)
    (hrf : g.refunded = (gs j).refunded) (hrc : g.recalled = (gs j).recalled) :
    RecoveriesInv o base w (Function.update gs j g) where
  stock := h.stock_frame ht hr hc
  freed hmem hk := h.freed_frame hmem hk hr
  stored := h.stored_frame hw
  others := h.others
  seen hk := h.seen_frame hk hs fun hne => hw ▸ hne
  payments := h.payments_frame hrf
  shipping := h.shipping_frame hrc

end Frame

/-- The call resolves, is answered as the contract assumes, and keeps the account. -/
def RecoverResolves (o : Order) (base w : World) (gs : κ → Progress) (j : κ) (c : Call) : Prop :=
  ∃ w' r, participate c w = (w', .ok r) ∧
    (recoverContract o.id fun _ => Snapshot o).ans (gs j) c r ∧
    RecoveriesInv o base w' (Function.update gs j ((gs j).note c r))

theorem RecoveriesInv.fields_resolves (h : RecoveriesInv o base w gs)
    (hstuck : isTerminalStatus o.status = false) {j : κ} {order : Order} (hid : order.id = o.id)
    (hsnap : (gs j).seen = none → Snapshot o order) :
    RecoverResolves o base w gs j (.fields order) := by
  refine ⟨w, w.store.fields order, rfl, trivial,
    { stock := h.stock_frame rfl rfl rfl
      freed := fun hr hk => h.freed_frame hr hk rfl
      stored := h.stored_frame rfl
      others := h.others
      seen := ?_
      payments := h.payments_frame rfl
      shipping := h.shipping_frame rfl }⟩
  intro k entry hk
  cases hseen : (gs j).seen with
  | some e => exact h.seen_frame hk (by simp [Progress.note, hseen]) fun hw => hw
  | none =>
    by_cases hkj : k = j
    · subst hkj
      rw [Function.update_self] at hk
      obtain rfl : w.store.fields order = entry := by simpa [Progress.note, hseen] using hk
      have hsnap := hsnap hseen
      rcases w.store.fields_cases order with hf | hf
      · rw [hf]
        refine ⟨hsnap.reservations, hsnap.completed, fun ht => ?_⟩
        rw [hsnap.stuck] at ht
        cases ht
      · obtain ⟨o', hget, hext, hstatus⟩ := h.stored
        rw [hid, hget] at hf
        obtain rfl := Option.some.inj hf
        refine ⟨hext.records.1, hext.records.2, fun ht => wrote_update (fun hw => hw) ?_⟩
        rcases hstatus with ⟨-, hst⟩ | ⟨i, hi⟩
        · rw [hst, hstuck] at ht
          cases ht
        · refine ⟨i, fun hnone => ?_⟩
          rw [Progress.status, hnone] at hi
          cases hi
    · rw [Function.update_of_ne hkj] at hk
      obtain ⟨hres, hcomp, hterm⟩ := h.seen hk
      exact ⟨hres, hcomp, fun ht => wrote_update (fun hw => hw) (hterm ht)⟩

theorem RecoveriesInv.get_resolves (h : RecoveriesInv o base w gs) (j : κ)
    (hseen : (gs j).seen ≠ none) : RecoverResolves o base w gs j (.get o.id) := by
  obtain ⟨o', hget, -⟩ := h.stored
  have hs : ((gs j).seen <|> some o') = (gs j).seen := by
    cases hs : (gs j).seen with
    | none => exact absurd hs hseen
    | some e => rfl
  exact ⟨w, some o', by simp only [participate, hget], rfl, h.frame rfl rfl rfl hs rfl rfl rfl⟩

theorem RecoveriesInv.nonTerminal_resolves (h : RecoveriesInv o base w gs) (j : κ) :
    RecoverResolves o base w gs j .nonTerminal :=
  ⟨w, _, rfl, trivial, h.frame rfl rfl rfl rfl rfl rfl rfl⟩

theorem RecoveriesInv.publish_resolves (h : RecoveriesInv o base w gs) (j : κ) (id : OrderId)
    (type : EventType) (detail : EventDetail) :
    RecoverResolves o base w gs j (.publish id type detail) := by
  have hI := h.frame (j := j) (g := gs j) rfl rfl rfl rfl rfl rfl rfl
  exact ⟨_, (), rfl, trivial,
    { stock := hI.stock
      freed := hI.freed
      stored := hI.stored
      others := hI.others
      seen := hI.seen
      payments := hI.payments
      shipping := hI.shipping }⟩

theorem RecoveriesInv.updateStatus_resolves (h : RecoveriesInv o base w gs) (j : κ)
    {status : OrderStatus} {type : EventType} {detail : EventDetail}
    (htype : type = .compensating ∨ type = .cancelled) :
    RecoverResolves o base w gs j (.updateStatus o.id status type detail) := by
  obtain ⟨o', hget, hext, -⟩ := h.stored
  obtain ⟨store', hst, -, hget'⟩ :=
    OrderStore.updateStatus_of_get hget status ⟨type, w.clock, detail⟩
  refine ⟨{ w with store := store' }, (), by simp only [participate, hst], trivial,
    { stock := h.stock_frame rfl rfl rfl
      freed := fun hr hk => h.freed_frame hr hk rfl
      stored := ⟨_, (hget' _).trans (if_pos rfl), hext.append htype status, Or.inr ⟨j, ?_⟩⟩
      others := ?_
      seen := fun hk => h.seen_frame hk rfl fun _ => by simp [Progress.note]
      payments := h.payments_frame rfl
      shipping := h.shipping_frame rfl }⟩
  · simp [Progress.note, Progress.status]
  · intro id hid
    show store'.get id = base.store.get id
    rw [hget', if_neg hid]
    exact h.others id hid

theorem RecoveriesInv.refund_resolves (h : RecoveriesInv o base w gs) (j : κ)
    (hpaid : (completedFromHistory o).paid = true) :
    RecoverResolves o base w gs j (.refund o.id) := by
  refine ⟨{ w with payments := (w.payments.refund o.id).1 }, _, rfl, trivial,
    { stock := h.stock_frame rfl rfl rfl
      freed := fun hr hk => h.freed_frame hr hk rfl
      stored := h.stored_frame rfl
      others := h.others
      seen := fun hk => h.seen_frame hk rfl fun hw => hw
      payments := ?_
      shipping := h.shipping_frame rfl }⟩
  show GivenBack _ _ _ (w.payments.refund o.id).1.charges _
  rw [PaymentGateway.refund_charges]
  exact h.payments.give (j := j) hpaid (by simp [Progress.note])

theorem RecoveriesInv.cancel_resolves (h : RecoveriesInv o base w gs) (j : κ)
    (hshipped : (completedFromHistory o).shipped = true) :
    RecoverResolves o base w gs j (.cancel o.id) :=
  ⟨{ w with shipping := w.shipping.cancel o.id }, (), rfl, trivial,
    { stock := h.stock_frame rfl rfl rfl
      freed := fun hr hk => h.freed_frame hr hk rfl
      stored := h.stored_frame rfl
      others := h.others
      seen := fun hk => h.seen_frame hk rfl fun hw => hw
      payments := h.payments_frame rfl
      shipping := h.shipping.give (j := j) hshipped (by simp [Progress.note]) }⟩

theorem RecoveriesInv.release_resolves (h : RecoveriesInv o base w gs) (j : κ)
    {warehouseId : WarehouseId} {sku : Sku} {id : ReservationId}
    (hr : ⟨warehouseId, sku, id⟩ ∈ reservationsFromHistory o) :
    RecoverResolves o base w gs j (.release warehouseId sku id) := by
  obtain ⟨redis', status, hrel, hheld, hunits⟩ := release_spec w.redis warehouseId sku id
  let b : Booking := ⟨⟨warehouseId, sku, id⟩, (held base.redis id).getD 0⟩
  have hb : b ∈ (withStopped (crashedRun o base.redis) gs none).taken := List.mem_map_of_mem hr
  refine ⟨{ w with redis := redis' }, status, by simp only [participate, hrel], trivial,
    { stock := ?_
      freed := ?_
      stored := h.stored_frame rfl
      others := h.others
      seen := fun hk => h.seen_frame hk rfl fun hw => hw
      payments := h.payments_frame rfl
      shipping := h.shipping_frame rfl }⟩
  · rw [update_withStopped]
    exact h.stock.release (i := none) (k := some j) hb hheld hunits rfl
  · intro k s hs hk
    show held redis' s.reservationId = none
    rw [hheld]
    split
    · rfl
    · rename_i hne
      refine h.freed hs (j := k) ?_
      by_cases hkj : k = j
      · subst hkj
        rw [Function.update_self] at hk
        simpa [Progress.note, hne] using hk
      · rwa [Function.update_of_ne hkj] at hk

theorem RecoveriesInv.resolves (h : RecoveriesInv o base w gs)
    (hstuck : isTerminalStatus o.status = false) {j : κ} {c : Call}
    (hp : RecoverAllowed o.id (fun _ => Snapshot o) (gs j) c) : RecoverResolves o base w gs j c := by
  cases c with
  | nonTerminal => exact h.nonTerminal_resolves j
  | fields order => exact h.fields_resolves hstuck hp.1 hp.2
  | get id =>
    obtain ⟨rfl, hseen⟩ := hp
    exact h.get_resolves j hseen
  | publish id type detail => exact h.publish_resolves j id type detail
  | updateStatus id status type detail =>
    obtain ⟨rfl, ⟨-, hw⟩ | ⟨-, d, hw⟩⟩ := hp
    · exact h.updateStatus_resolves j (Or.inl (congrArg Write.type hw))
    · exact h.updateStatus_resolves j (Or.inr (congrArg Write.type hw))
  | refund id =>
    obtain ⟨rfl, entry, hseen, hpaid⟩ := hp
    exact h.refund_resolves j ((h.seen hseen).2.1 ▸ hpaid)
  | cancel id =>
    obtain ⟨rfl, entry, hseen, hshipped⟩ := hp
    exact h.cancel_resolves j ((h.seen hseen).2.1 ▸ hshipped)
  | release warehouseId sku id =>
    obtain ⟨entry, hseen, hr⟩ := hp
    rw [(h.seen hseen).1] at hr
    exact h.release_resolves j hr
  | _ => exact hp.elim

variable (κ) in
theorem recoveries_sound (base : World) (hstuck : isTerminalStatus o.status = false) :
    Sound (sagas κ) (fun _ => recoverContract o.id fun _ => Snapshot o) (RecoveriesInv o base) := by
  refine Sound.of_resolves (fun hI hp _ => hI.resolves hstuck hp.2) fun hI he => ?_
  obtain ⟨seconds, ms, rfl, hl⟩ := he
  refine ⟨hI.stock.lookups hl fun _ h => h, fun hr hj => ?_, hI.stored, hI.others, hI.seen,
    hI.payments, hI.shipping⟩
  rw [held, hl]
  exact hI.freed hr hj

omit [DecidableEq κ] in
/-- At the start the recorded reservations that are live are on hold for the run that was left behind. -/
theorem recoveriesInv_start (hget : w.store.get o.id = some o)
    (hrec : ((reservationsFromHistory o).map Reservation.reservationId).Nodup) :
    RecoveriesInv o w w fun _ : κ => {} where
  stock :=
    { own := by
        rintro (_ | j)
        · simpa [withStopped, crashedRun, Function.comp_def] using hrec
        · exact List.nodup_nil
      apart := by
        rintro (_ | i) (_ | j) b b' hb hb' -
        · rfl
        · cases hb'
        · cases hb
        · cases hb
      used := fun _ h => h
      vacant := fun h => h.elim
      qty := by
        rintro (_ | j) b q hb hq
        · obtain ⟨r, -, rfl⟩ := List.mem_map.mp hb
          show q = (held w.redis r.reservationId).getD 0
          rw [show held w.redis r.reservationId = some q from hq, Option.getD_some]
        · cases hb
      gone := by
        rintro (_ | j) b hb (h | h) <;> cases h
      others := fun _ => rfl
      conserved := fun item => by
        have hstopped : (crashedRun o w.redis).tied w.redis item =
            onHold w.redis (reservationsFromHistory o) item := by
          rw [Progress.tied, crashedRun, List.map_map, onHold]
          refine congrArg List.sum (List.map_congr_left fun r _ => ?_)
          simp only [Function.comp_apply, Booking.tied]
          by_cases hi : r.item = item
          · cases held w.redis r.reservationId <;> simp
          · simp [hi]
        have hidle : ({} : Progress).tied w.redis item = 0 := rfl
        rw [Fintype.sum_option]
        simp only [withStopped, hstopped, hidle, Finset.sum_const_zero, add_zero] }
  freed _ h := by cases h
  stored := ⟨o, hget, Extends.refl o, Or.inl ⟨fun _ => rfl, rfl⟩⟩
  others _ _ := rfl
  seen h := by cases h
  payments := ⟨fun h => Bool.noConfusion h, fun _ => rfl, fun h => Bool.noConfusion h⟩
  shipping := ⟨fun h => Bool.noConfusion h, fun _ => rfl, fun h => Bool.noConfusion h⟩

/-! ## What recoveries that have returned leave behind -/

omit [DecidableEq κ] in
/-- Some recovery has undone all that is on record: one that left the order alone saw the terminal
status that another one had stored. -/
theorem RecoveriesInv.exists_recovered [Nonempty κ] (h : RecoveriesInv o base w gs)
    (hret : ∀ j, (gs j).HasRecovered) :
    ∃ j, (∀ r ∈ reservationsFromHistory o, r.reservationId ∈ (gs j).released) ∧
      (gs j).GaveBack (completedFromHistory o) ∧ (gs j).written ≠ [] := by
  have hwrote : ∃ j, (gs j).written ≠ [] := by
    obtain ⟨j⟩ := ‹Nonempty κ›
    cases hret j with
    | leftAlone hterm hg => exact (h.seen hg.seen).2.2 hterm
    | recovered _ hg _ => exact ⟨j, by simp [hg.written]⟩
  obtain ⟨j, hj⟩ := hwrote
  refine ⟨j, ?_⟩
  cases hret j with
  | leftAlone _ hg => exact absurd hg.written hj
  | recovered _ hg hback =>
    obtain ⟨hres, hcomp, -⟩ := h.seen hg.seen
    rw [hres] at hg
    rw [hcomp] at hback
    refine ⟨fun r hr => ?_, hback, hj⟩
    rw [hg.released]
    exact List.mem_map_of_mem hr

omit [DecidableEq κ] in
/-- The last status that a recovery stores is the one of a cancelled order. -/
theorem RecoveriesInv.stored_cancelled (h : RecoveriesInv o base w gs)
    (hret : ∀ j, (gs j).HasRecovered) (hwrote : ∃ j, (gs j).written ≠ []) :
    ∃ o', w.store.get o.id = some o' ∧ o'.status = .CANCELLED ∧ Extends o o' := by
  obtain ⟨o', hget, hext, hstatus⟩ := h.stored
  refine ⟨o', hget, ?_, hext⟩
  rcases hstatus with ⟨hnone, -⟩ | ⟨j, hj⟩
  · obtain ⟨j, hj⟩ := hwrote
    exact absurd (hnone j) hj
  · cases hret j with
    | leftAlone _ hg => simp [Progress.status, hg.written] at hj
    | recovered _ hg _ => simpa [Progress.status, hg.written, Write.cancelled, eq_comm] using hj

omit [DecidableEq κ] in
theorem RecoveriesInv.units_eq (h : RecoveriesInv o base w gs) (htaken : ∀ j, (gs j).taken = [])
    (hfreed : ∀ r ∈ reservationsFromHistory o, held w.redis r.reservationId = none) (item : String) :
    units w.redis item =
      units base.redis item + onHold base.redis (reservationsFromHistory o) item := by
  have hlevel := h.stock.conserved item
  have hstopped : (crashedRun o base.redis).tied w.redis item = 0 := by
    refine tied_of_gone (fun b hb => ?_) rfl
    obtain ⟨r, hr, rfl⟩ := List.mem_map.mp hb
    exact hfreed r hr
  have hidle : ∀ j, (gs j).tied w.redis item = 0 := by
    intro j
    simp [Progress.tied, htaken j]
  rw [Fintype.sum_option] at hlevel
  simpa [withStopped, hstopped, hidle] using hlevel

omit [DecidableEq κ] in
theorem RecoveriesInv.held_other (h : RecoveriesInv o base w gs) (htaken : ∀ j, (gs j).taken = [])
    {id : ReservationId}
    (hid : id ∉ (reservationsFromHistory o).map Reservation.reservationId) :
    held w.redis id = held base.redis id := by
  refine h.stock.others fun i b hb heq => ?_
  cases i with
  | none =>
    obtain ⟨r, hr, rfl⟩ := List.mem_map.mp hb
    exact hid (heq ▸ List.mem_map_of_mem hr)
  | some j =>
    rw [show (withStopped (crashedRun o base.redis) gs (some j)).taken = [] from htaken j] at hb
    cases hb

omit [DecidableEq κ] in
/-- Recoveries that have all returned have undone what the order records. -/
theorem RecoveriesInv.undone [Nonempty κ] (h : RecoveriesInv o base w gs)
    (hret : ∀ j, (gs j).HasRecovered) : Undone o base w := by
  have htaken : ∀ j, (gs j).taken = [] := by
    intro j
    cases hret j with
    | leftAlone _ hg => exact hg.taken
    | recovered _ hg _ => exact hg.taken
  obtain ⟨j, hreleased, hback, hwrote⟩ := h.exists_recovered hret
  have hfreed : ∀ r ∈ reservationsFromHistory o, held w.redis r.reservationId = none :=
    fun r hr => h.freed hr (hreleased r hr)
  refine ⟨fun warehouseId sku => ?_, fun id => ?_, h.payments.eq hback.1, h.shipping.eq hback.2,
    h.stored_cancelled hret ⟨j, hwrote⟩, h.others⟩
  · rw [getAvailable_eq, getAvailable_eq, h.units_eq htaken hfreed]
  · split
    · rename_i hmem
      obtain ⟨r, hr, rfl⟩ := List.mem_map.mp hmem
      exact hfreed r hr
    · rename_i hmem
      exact h.held_other htaken hmem

end Recoveries

/-! ## Confluence -/

/-- What undoes the same record has the same outcome. -/
theorem Undone.same {w w₁ w₂ : World} (h₁ : Undone o w w₁) (h₂ : Undone o w w₂) :
    SameOutcome o w₁ w₂ where
  stock warehouseId sku := (h₂.stock warehouseId sku).trans (h₁.stock warehouseId sku).symm
  held id := (h₂.held id).trans (h₁.held id).symm
  charges := h₂.charges.trans h₁.charges.symm
  shipments := h₂.shipments.trans h₁.shipments.symm
  record := by
    obtain ⟨o₁, hget₁, hst₁, hext₁⟩ := h₁.cancelled
    obtain ⟨o₂, hget₂, hst₂, hext₂⟩ := h₂.cancelled
    refine ⟨o₁, o₂, hget₁, hget₂, ?_⟩
    rw [hext₂.record, hext₁.record, hst₁, hst₂]
  others id hid := (h₂.others id hid).trans (h₁.others id hid).symm

/-- One recovery alone undoes what the order records. -/
theorem Snapshot.exec {w : World} {alone : Order} (h : Snapshot o alone)
    (hget : w.store.get o.id = some o) (hstuck : isTerminalStatus o.status = false)
    (hrec : ((reservationsFromHistory o).map Reservation.reservationId).Nodup) :
    ∃ w₁ r, (recoverStuck alone).exec participate w = (w₁, .ok r) ∧ Undone o w w₁ := by
  obtain ⟨g, hI, hend⟩ := (recoveries_sound Unit w hstuck).exec (i := ())
    (fun _ _ _ _ => trivial) (recoveriesInv_start hget hrec)
    (recoverStuck_outline h.id h rfl rfl rfl rfl)
  rcases hex : (recoverStuck alone).exec participate w with ⟨w₁, e | r⟩
  · rw [show (recoverStuck alone).exec (sagas Unit).handle w = (w₁, .error e) from hex] at hend
    exact hend.elim
  · rw [show (recoverStuck alone).exec (sagas Unit).handle w = (w₁, .ok r) from hex] at hI hend
    refine ⟨w₁, r, rfl, hI.undone fun j => ?_⟩
    rw [Function.update_self]
    exact hend

/-- However many recoveries of an order run at once, and in whatever order their calls take effect: when
all have returned, what the order records is undone, each live reservation once, and the outcome is that
of one recovery alone. -/
theorem recoverers_agree [Fintype κ] [DecidableEq κ] [Nonempty κ] {w : World} {snap : κ → Order}
    (hget : w.store.get o.id = some o) (hstuck : isTerminalStatus o.status = false)
    (hrec : ((reservationsFromHistory o).map Reservation.reservationId).Nodup)
    (hsnap : ∀ j, Snapshot o (snap j)) {P : Pool participants κ SagaError World Progress Order}
    (hr : (sagas κ).Reaches ⟨w, fun _ => {}, fun j => recoverStuck (snap j)⟩ P)
    (hret : ∀ j, ∃ r, P.prog j = .ret r) :
    Undone o w P.state ∧ ∀ alone, Snapshot o alone →
      ∃ w₁ r, (recoverStuck alone).exec participate w = (w₁, .ok r) ∧
        SameOutcome o w₁ P.state := by
  obtain ⟨hI, ho⟩ := (recoveries_sound κ w hstuck).reaches hr (recoveriesInv_start hget hrec)
    fun j => recoverStuck_outline (hsnap j).id (hsnap j) rfl rfl rfl rfl
  have hundone : Undone o w P.state := by
    refine hI.undone fun j => ?_
    obtain ⟨r, hj⟩ := hret j
    have hoj := ho j
    rwa [hj] at hoj
  refine ⟨hundone, fun alone halone => ?_⟩
  obtain ⟨w₁, r, hex, hone⟩ := halone.exec hget hstuck hrec
  exact ⟨w₁, r, hex, hone.same hundone⟩

/-! ### An order to recover -/

/-- The order of two units as a crash left it, with the charge on record. -/
def stuckOrder : Order := ((stopAfter 6).state.store.get "order").getD soloOrder

/-- Two recoveries of it, taking turns until both have returned. -/
def twoRecoveries : Pool participants Bool SagaError World Progress Order :=
  (sagas Bool).schedule ⟨(stopAfter 6).state, fun _ => {}, fun _ => recoverStuck stuckOrder⟩
    (List.replicate 12 [false, true]).flatten

/-- Taking turns, they return the two units once and refund the charge. -/
theorem recoverers_agree_pair : Undone stuckOrder (stopAfter 6).state twoRecoveries.state ∧
    getAvailable twoRecoveries.state.redis "warehouse" "sku" = 5 ∧
    ∃ w₁ r, (recoverStuck stuckOrder).exec participate (stopAfter 6).state = (w₁, .ok r) ∧
      SameOutcome stuckOrder w₁ twoRecoveries.state := by
  have hsnap : Snapshot stuckOrder stuckOrder := ⟨rfl, by decide +kernel, rfl, rfl⟩
  have hr := reaches_schedule (M := sagas Bool) (fun _ _ _ _ => trivial)
    (List.replicate 12 [false, true]).flatten
    ⟨(stopAfter 6).state, fun _ => {}, fun _ => recoverStuck stuckOrder⟩
  have hret : ∀ j, (twoRecoveries.prog j).returned = true := by decide +kernel
  obtain ⟨hundone, hsame⟩ := recoverers_agree (by decide +kernel) hsnap.stuck (by decide +kernel)
    (fun _ => hsnap) hr fun j => Prog.returned_iff.mp (hret j)
  exact ⟨hundone, by decide +kernel, hsame stuckOrder hsnap⟩

end SupplyChain
