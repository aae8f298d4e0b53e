import Mathlib.Data.Fintype.BigOperators
import SupplyChain.Orders.Proofs.AccountsProofs
import SupplyChain.Orders.Proofs.CrashProofs
import SupplyChain.Orders.Proofs.RecoverOutlineProofs
import SupplyChain.Orders.Races

/-!
# Proofs: a live run and recoveries of its order

Nothing keeps a recovery from acting on an order whose run is alive, and the run goes on regardless of
what the recovery has undone. As long as they keep clear of each other, the outcome is all or nothing.
-/

namespace SupplyChain

open Async InventoryService SagaOrchestrator

variable {κ : Type} {o order : Order} {g : Progress}

/-! ## What is on record -/

theorem RecordsOf.mono {g' : Progress} (h : RecordsOf g order) (ht : ∀ b ∈ g.taken, b ∈ g'.taken) :
    RecordsOf g' order := by
  intro r hr
  obtain ⟨b, hb, rfl⟩ := List.mem_map.mp (h r hr)
  exact List.mem_map_of_mem (ht b hb)

/-- An event adds to the recorded reservations at most those that it tells itself. -/
theorem RecordsOf.append (h : RecordsOf g order) (status : OrderStatus) {e : OrderEvent}
    (he : e.type = .inventoryReserved →
      ∀ r ∈ e.detail.reservations.getD [], r ∈ g.taken.map Booking.reservation) :
    RecordsOf g { order with status, history := order.history ++ [e] } := by
  intro r hr
  rw [reservationsFromHistory, List.find?_append] at hr
  cases hfind : order.history.find? fun h => h.type = .inventoryReserved with
  | some e' =>
    rw [hfind, Option.some_or] at hr
    refine h r ?_
    rw [reservationsFromHistory, hfind]
    exact hr
  | none =>
    rw [hfind, Option.none_or] at hr
    by_cases htype : e.type = .inventoryReserved
    · simp only [List.find?_cons, htype, decide_true, Option.bind_some] at hr
      exact he htype r hr
    · simp [htype] at hr

/-- `run` stores its last transition once. -/
theorem Next.not_confirmed {f : Faults} {w : Write} (h : Next f o g w) :
    Write.confirmed ∉ g.written := by
  cases h with
  | reserved _ hg => simp [hg.written]
  | paid hg => simp [hg.written, Write.reserved, Write.confirmed]
  | scheduled hg => simp [hg.written, Write.reserved, Write.paid, Write.confirmed]
  | confirmed hg =>
    simp [hg.written, Write.reserved, Write.paid, Write.scheduled, Write.confirmed]
  | compensating hf hg =>
    cases hf <;> simp [hg.written, Write.reserved, Write.paid, Write.confirmed]
  | cancelled hf hg =>
    cases hf <;> simp [hg.written, Write.reserved, Write.paid, Write.confirmed, Write.compensating]

/-- The reservations that `run` records are those that it took. -/
theorem Next.reservations {f : Faults} {status : OrderStatus} {detail : EventDetail}
    (h : Next f o g ⟨status, .inventoryReserved, detail⟩) :
    detail.reservations.getD [] = g.taken.map Booking.reservation := by
  cases h with
  | reserved _ _ => rfl

namespace RaceRecords

variable [DecidableEq κ] {store : OrderStore} {gs : Option κ → Progress} {i : Option κ}

theorem update (h : RaceRecords o store gs) (hw : g.written = (gs i).written)
    (ht : ∀ b ∈ (gs i).taken, b ∈ g.taken)
    (hl : ∀ j, i = some j → ∀ order ∈ g.listed, order.id = o.id → RecordsOf (gs none) order)
    (hs : ∀ j, i = some j → ∀ entry, g.seen = some entry → RecordsOf (gs none) entry) :
    RaceRecords o store (Function.update gs i g) := by
  have htaken : ∀ b ∈ (gs none).taken, b ∈ (Function.update gs i g none).taken := by
    intro b hb
    by_cases hi : none = i
    · subst hi
      rw [Function.update_self]
      exact ht b hb
    · rwa [Function.update_of_ne hi]
  have hwritten : ∀ k, (Function.update gs i g k).written = (gs k).written :=
    update_proj Progress.written hw
  refine ⟨?_, fun {j order} hmem hid => ?_, fun {j entry} hseen => ?_⟩
  · obtain ⟨o', hget, hlines, hrec, hstatus, hconf⟩ := h.stored
    refine ⟨o', hget, hlines, hrec.mono htaken, ?_, fun hc => hconf (hwritten none ▸ hc)⟩
    rcases hstatus with ⟨hnone, hst⟩ | ⟨k, hk⟩
    · exact Or.inl ⟨fun k => (hwritten k).trans (hnone k), hst⟩
    · refine Or.inr ⟨k, ?_⟩
      rw [Progress.status, hwritten]
      exact hk
  · refine RecordsOf.mono ?_ htaken
    by_cases hj : some j = i
    · subst hj
      rw [Function.update_self] at hmem
      exact hl j rfl order hmem hid
    · rw [Function.update_of_ne hj] at hmem
      exact h.listed hmem hid
  · refine RecordsOf.mono ?_ htaken
    by_cases hj : some j = i
    · subst hj
      rw [Function.update_self] at hseen
      exact hs j rfl entry hseen
    · rw [Function.update_of_ne hj] at hseen
      exact h.seen hseen

theorem frame (h : RaceRecords o store gs) (hw : g.written = (gs i).written)
    (ht : ∀ b ∈ (gs i).taken, b ∈ g.taken) (hl : g.listed = (gs i).listed)
    (hs : g.seen = (gs i).seen) : RaceRecords o store (Function.update gs i g) := by
  refine h.update hw ht ?_ ?_
  · rintro j rfl order hmem
    exact h.listed (hl ▸ hmem)
  · rintro j rfl entry hseen
    exact h.seen (hs ▸ hseen)

theorem write (h : RaceRecords o store gs) (hno : Write.confirmed ∉ (gs none).written)
    {status : OrderStatus} {e : OrderEvent} (hg : g =
      { gs i with written := (gs i).written ++ [⟨status, e.type, e.detail⟩] })
    (he : e.type = .inventoryReserved →
      ∀ r ∈ e.detail.reservations.getD [], r ∈ (gs none).taken.map Booking.reservation) :
    ∃ store', store.updateStatus o.id status e = some store' ∧
      RaceRecords o store' (Function.update gs i g) := by
  obtain ⟨o', hget, hlines, hrec, -⟩ := h.stored
  obtain ⟨store', hst, -, hget'⟩ := OrderStore.updateStatus_of_get hget status e
  have htaken : ∀ k, (Function.update gs i g k).taken = (gs k).taken :=
    update_proj Progress.taken (by rw [hg])
  have hlisted : ∀ k, (Function.update gs i g k).listed = (gs k).listed :=
    update_proj Progress.listed (by rw [hg])
  have hseen : ∀ k, (Function.update gs i g k).seen = (gs k).seen :=
    update_proj Progress.seen (by rw [hg])
  have hmono : ∀ b ∈ (gs none).taken, b ∈ (Function.update gs i g none).taken := by
    intro b hb
    rwa [htaken]
  refine ⟨store', hst, ⟨_, (hget' _).trans (if_pos rfl), hlines,
    (hrec.append status he).mono hmono, Or.inr ⟨i, ?_⟩, fun hc => ?_⟩,
    fun {j order} hmem hid => ?_, fun {j entry} hs => ?_⟩
  · simp [hg, Progress.status]
  · by_cases hi : none = i
    · subst hi
      rw [Function.update_self, hg] at hc
      rcases List.mem_append.mp hc with hc | hc
      · exact absurd hc hno
      · exact (congrArg Write.status (List.mem_singleton.mp hc)).symm
    · rw [Function.update_of_ne hi] at hc
      exact absurd hc hno
  · rw [hlisted] at hmem
    exact (h.listed hmem hid).mono hmono
  · rw [hseen] at hs
    exact (h.seen hs).mono hmono

end RaceRecords

/-! ## Every awaited call resolves and keeps the account -/

section Race

variable [Fintype κ] [DecidableEq κ] {base w : World} {gs : Option κ → Progress} {i : Option κ}

/-- The call resolves, is answered as the contract assumes, and keeps the account. -/
def RaceResolves (o : Order) (base w : World) (gs : Option κ → Progress) (i : Option κ) (c : Call) :
    Prop :=
  ∃ w' r, participate c w = (w', .ok r) ∧ (raceContract o i).ans (gs i) c r ∧
    RaceInv o base w' (Function.update gs i ((gs i).note c r))

namespace RaceInv

omit [DecidableEq κ] in
/-- Until the stored status is `CONFIRMED`, the run has not confirmed. -/
theorem not_confirmed (h : RaceInv o base w gs) (hst : storedStatus w o.id ≠ some .CONFIRMED) :
    Write.confirmed ∉ (gs none).written := by
  obtain ⟨o', hget, -, -, -, hconf⟩ := h.records.stored
  intro hc
  exact hst (by rw [storedStatus, hget, Option.map_some, hconf hc])

theorem idle_frame (h : RaceInv o base w gs) (ht : ∀ j, i = some j → g.taken = []) (j : κ) :
    (Function.update gs i g (some j)).taken = [] := by
  by_cases hj : some j = i
  · subst hj
    rw [Function.update_self]
    exact ht j rfl
  · rw [Function.update_of_ne hj]
    exact h.idle j

theorem stock_frame (h : RaceInv o base w gs) (ht : g.taken = (gs i).taken)
    (hr : g.released = (gs i).released) (hc : g.committed = (gs i).committed) :
    StockInv (units base.redis) (held base.redis) (Unused w.uuids w.drawn) w.redis
      (Function.update gs i g) :=
  h.stock.congr (update_proj Progress.taken ht) (update_proj Progress.released hr)
    (update_proj Progress.committed hc)

theorem charged_frame (h : RaceInv o base w gs) (hc : g.charged = (gs i).charged)
    (hs : (w.payments.charges o.id).isSome = true) :
    (Function.update gs i g none).charged = true := by
  rw [update_proj Progress.charged hc]
  exact h.charged hs

theorem shipped_frame (h : RaceInv o base w gs) (hc : g.shipped = (gs i).shipped)
    (hs : (w.shipping.shipments o.id).isSome = true) :
    (Function.update gs i g none).shipped = true := by
  rw [update_proj Progress.shipped hc]
  exact h.shipped hs

omit [Fintype κ] in
theorem confirmed_frame (hc : Write.confirmed ∈ (Function.update gs i g none).written)
    (hw : g.written = (gs i).written) : Write.confirmed ∈ (gs none).written := by
  rwa [update_proj Progress.written hw] at hc

theorem paid_frame (h : RaceInv o base w gs) (hw : g.written = (gs i).written)
    (hc : Write.confirmed ∈ (Function.update gs i g none).written) :
    (w.payments.charges o.id).isSome = true ∧ (w.shipping.shipments o.id).isSome = true :=
  h.paid (confirmed_frame hc hw)

theorem read (h : RaceInv o base w gs) {seen : Option Order} {listed : List Order}
    (hg : g = { gs i with seen, listed })
    (hl : ∀ j, i = some j → ∀ order ∈ listed, order.id = o.id → RecordsOf (gs none) order)
    (hs : ∀ j, i = some j → ∀ entry, seen = some entry → RecordsOf (gs none) entry) :
    RaceInv o base w (Function.update gs i g) := by
  subst hg
  refine
    { stock := h.stock_frame rfl rfl rfl
      idle := h.idle_frame ?_
      records := h.records.update rfl (fun _ hb => hb) hl hs
      charged := h.charged_frame rfl
      shipped := h.shipped_frame rfl
      paid := h.paid_frame rfl }
  rintro j rfl
  exact h.idle j

theorem get_resolves (h : RaceInv o base w gs) (hs : ∀ j, i = some j → (gs i).seen ≠ none) :
    RaceResolves o base w gs i (.get o.id) := by
  obtain ⟨o', hget, hlines, -⟩ := h.records.stored
  refine ⟨w, some o', by simp only [participate, hget], ?_, h.read rfl ?_ ?_⟩
  · cases i with
    | none => exact ⟨o', rfl, OrderStore.id_of_get hget, hlines⟩
    | some j => rfl
  · rintro j rfl order hmem
    exact h.records.listed hmem
  · rintro j rfl entry hentry
    cases hseen : (gs (some j)).seen with
    | none => exact absurd hseen (hs j rfl)
    | some e =>
      rw [hseen] at hentry
      exact h.records.seen (hseen.trans hentry)

theorem nonTerminal_resolves (h : RaceInv o base w gs) (j : κ) :
    RaceResolves o base w gs (some j) .nonTerminal := by
  refine ⟨w, w.store.nonTerminal, rfl, trivial, h.read rfl ?_ ?_⟩
  · rintro k hk order hmem hid
    rcases List.mem_append.mp hmem with hmem | hmem
    · exact h.records.listed hmem hid
    · obtain ⟨hget, -⟩ := OrderStore.mem_nonTerminal.mp hmem
      obtain ⟨o', hget', -, hrec, -⟩ := h.records.stored
      rw [hid, hget'] at hget
      exact Option.some.inj hget ▸ hrec
  · rintro k hk entry hseen
    exact h.records.seen hseen

theorem fields_resolves (h : RaceInv o base w gs) (j : κ) (hid : order.id = o.id)
    (hknown : (gs (some j)).seen = none → order ∈ (gs (some j)).listed) :
    RaceResolves o base w gs (some j) (.fields order) := by
  refine ⟨w, w.store.fields order, rfl, trivial, h.read rfl ?_ ?_⟩
  · rintro k hk order hmem
    exact h.records.listed hmem
  · rintro k hk entry hentry
    cases hseen : (gs (some j)).seen with
    | some e =>
      rw [hseen] at hentry
      exact h.records.seen (hseen.trans hentry)
    | none =>
      rw [hseen] at hentry
      obtain rfl : w.store.fields order = entry := Option.some.inj hentry
      rcases w.store.fields_cases order with hf | hf
      · rw [hf]
        exact h.records.listed (hknown hseen) hid
      · obtain ⟨o', hget, -, hrec, -⟩ := h.records.stored
        rw [hid, hget] at hf
        exact Option.some.inj hf ▸ hrec

theorem publish_resolves (h : RaceInv o base w gs) (id : OrderId) (type : EventType)
    (detail : EventDetail) : RaceResolves o base w gs i (.publish id type detail) := by
  refine ⟨_, (), rfl, by cases i <;> trivial,
    { stock := h.stock_frame rfl rfl rfl
      idle := h.idle_frame ?_
      records := h.records.frame rfl (fun _ hb => hb) rfl rfl
      charged := h.charged_frame rfl
      shipped := h.shipped_frame rfl
      paid := h.paid_frame rfl }⟩
  rintro j rfl
  exact h.idle j

theorem updateStatus_resolves (h : RaceInv o base w gs) (hno : Write.confirmed ∉ (gs none).written)
    {status : OrderStatus} {type : EventType} {detail : EventDetail}
    (hres : type = .inventoryReserved →
      ∀ r ∈ detail.reservations.getD [], r ∈ (gs none).taken.map Booking.reservation)
    (hpaid : i = none → status = .CONFIRMED →
      (w.payments.charges o.id).isSome = true ∧ (w.shipping.shipments o.id).isSome = true) :
    RaceResolves o base w gs i (.updateStatus o.id status type detail) := by
  obtain ⟨store', hst, hrec⟩ := h.records.write hno (e := ⟨type, w.clock, detail⟩) rfl hres
  refine ⟨{ w with store := store' }, (), by simp only [participate, hst], by cases i <;> trivial,
    { stock := h.stock_frame rfl rfl rfl
      idle := h.idle_frame ?_
      records := hrec
      charged := h.charged_frame rfl
      shipped := h.shipped_frame rfl
      paid := ?_ }⟩
  · rintro j rfl
    exact h.idle j
  · intro hc
    cases i with
    | some j =>
      rw [Function.update_of_ne (by simp)] at hc
      exact absurd hc hno
    | none =>
      rw [Function.update_self] at hc
      rcases List.mem_append.mp hc with hc | hc
      · exact absurd hc hno
      · exact hpaid rfl (congrArg Write.status (List.mem_singleton.mp hc)).symm

theorem refund_resolves (h : RaceInv o base w gs) (hno : Write.confirmed ∉ (gs none).written) :
    RaceResolves o base w gs i (.refund o.id) := by
  have hnone : (w.payments.refund o.id).1.charges o.id = none := by
    rw [PaymentGateway.refund_charges]
    exact if_pos rfl
  refine ⟨{ w with payments := (w.payments.refund o.id).1 }, _, rfl, by cases i <;> trivial,
    { stock := h.stock_frame rfl rfl rfl
      idle := h.idle_frame ?_
      records := h.records.frame rfl (fun _ hb => hb) rfl rfl
      charged := ?_
      shipped := h.shipped_frame rfl
      paid := fun hc => absurd (confirmed_frame hc rfl) hno }⟩
  · rintro j rfl
    exact h.idle j
  · intro hs
    change ((w.payments.refund o.id).1.charges o.id).isSome = true at hs
    rw [hnone] at hs
    cases hs

theorem cancel_resolves (h : RaceInv o base w gs) (j : κ)
    (hno : Write.confirmed ∉ (gs none).written) :
    RaceResolves o base w gs (some j) (.cancel o.id) := by
  refine ⟨{ w with shipping := w.shipping.cancel o.id }, (), rfl, trivial,
    { stock := h.stock_frame rfl rfl rfl
      idle := h.idle_frame ?_
      records := h.records.frame rfl (fun _ hb => hb) rfl rfl
      charged := h.charged_frame rfl
      shipped := ?_
      paid := fun hc => absurd (confirmed_frame hc rfl) hno }⟩
  · rintro k hk
    exact h.idle j
  · intro hs
    simp [ShippingProvider.cancel] at hs

theorem release_resolves (h : RaceInv o base w gs) {b : Booking} (hb : b ∈ (gs none).taken) :
    RaceResolves o base w gs i
      (.release b.reservation.warehouseId b.reservation.sku b.id) := by
  obtain ⟨redis', status, hrel, hheld, hunits⟩ :=
    release_spec w.redis b.reservation.warehouseId b.reservation.sku b.id
  refine ⟨{ w with redis := redis' }, status, by simp only [participate, hrel],
    by cases i <;> trivial,
    { stock := h.stock.release hb hheld hunits rfl
      idle := h.idle_frame ?_
      records := h.records.frame rfl (fun _ hb => hb) rfl rfl
      charged := h.charged_frame rfl
      shipped := h.shipped_frame rfl
      paid := h.paid_frame rfl }⟩
  rintro j rfl
  exact h.idle j

theorem commit_resolves (h : RaceInv o base w gs) {b : Booking} (hb : b ∈ (gs none).taken)
    (hlive : (held w.redis b.id).isSome = true) :
    RaceResolves o base w gs none
      (.commit b.reservation.warehouseId b.reservation.sku b.id) := by
  obtain ⟨redis', status, hcom, hheld, hunits⟩ :=
    commit_spec w.redis b.reservation.warehouseId b.reservation.sku b.id
  refine ⟨{ w with redis := redis' }, status, by simp only [participate, hcom], trivial,
    { stock := h.stock.commit hb hlive hheld hunits rfl
      idle := h.idle_frame ?_
      records := h.records.frame rfl (fun _ hb => hb) rfl rfl
      charged := h.charged_frame rfl
      shipped := h.shipped_frame rfl
      paid := h.paid_frame rfl }⟩
  rintro j hj
  cases hj

theorem reserve_resolves (h : RaceInv o base w gs) (warehouseId : WarehouseId) (sku : Sku) (qty : Int)
    (hr : (gs none).released = []) (hc : (gs none).committed = []) :
    RaceResolves o base w gs none (.reserve warehouseId sku qty) := by
  have hidle : ∀ (g : Progress) (j : κ), none = some j → g.taken = [] := fun _ _ hj => by cases hj
  have ht : 0 < DEFAULT_RESERVATION_TTL_SECONDS := by decide
  rcases reserve_spec w.redis warehouseId sku qty ht (w.uuids.draw w.drawn) with
    ⟨reason, remaining, hres, -⟩ | ⟨redis', remaining, hres, -, -, hheld, hunits⟩
  · refine ⟨{ w with drawn := w.drawn + 1 }, .rejected reason remaining, ?_, trivial, ?_⟩
    · simp only [participate, hres]
    · rw [show (gs none).note (.reserve warehouseId sku qty) (.rejected reason remaining) = gs none
        from rfl, Function.update_eq_self]
      exact ⟨h.stock.lookups (fun _ => rfl) fun _ => Unused.of_succ, h.idle, h.records, h.charged,
        h.shipped, h.paid⟩
  · let b : Booking := ⟨⟨warehouseId, sku, w.uuids.draw w.drawn⟩, qty⟩
    refine ⟨{ w with redis := redis', drawn := w.drawn + 1 },
      .accepted (w.uuids.draw w.drawn) remaining, ?_, trivial,
      { stock := ?_
        idle := h.idle_frame (hidle _)
        records := h.records.frame rfl (fun _ hb => List.mem_append_left _ hb) rfl rfl
        charged := h.charged_frame rfl
        shipped := h.shipped_frame rfl
        paid := h.paid_frame rfl }⟩
    · simp only [participate, hres]
    · exact h.stock.accept (b := b) (unused_draw _ _) (not_unused_draw _ _)
        (fun _ => Unused.of_succ) hheld hunits rfl (by simp [hr]) (by simp [hc])

theorem charge_resolves (h : RaceInv o base w gs) (amount : Int) :
    RaceResolves o base w gs none (.charge o.id amount) := by
  rcases w.payments.charge_cases o.id amount with
    ⟨-, reason, hch⟩ | ⟨payments', paymentId, -, hch, hcharges, -⟩
  · refine ⟨w, .failed reason, by simp only [participate, hch], trivial, ?_⟩
    rw [show (gs none).note (.charge o.id amount) (.failed reason) = gs none from rfl,
      Function.update_eq_self]
    exact h
  · refine ⟨{ w with payments := payments' }, .ok paymentId, by simp only [participate, hch], trivial,
      { stock := h.stock_frame rfl rfl rfl
        idle := h.idle_frame fun j hj => by cases hj
        records := h.records.frame rfl (fun _ hb => hb) rfl rfl
        charged := fun _ => by simp [Progress.note]
        shipped := h.shipped_frame rfl
        paid := ?_ }⟩
    · intro hc
      refine ⟨?_, (h.paid (confirmed_frame hc rfl)).2⟩
      show (payments'.charges o.id).isSome = true
      simp [hcharges]

theorem schedule_resolves (h : RaceInv o base w gs) (warehouseId : WarehouseId) :
    RaceResolves o base w gs none (.schedule o.id warehouseId) := by
  rcases w.shipping.schedule_cases o.id warehouseId with
    ⟨-, reason, hsh⟩ | ⟨shipping', shipmentId, -, hsh, hshipments, -⟩
  · refine ⟨w, .failed reason, by simp only [participate, hsh], trivial, ?_⟩
    rw [show (gs none).note (.schedule o.id warehouseId) (.failed reason) = gs none from rfl,
      Function.update_eq_self]
    exact h
  · refine ⟨{ w with shipping := shipping' }, .ok shipmentId, by simp only [participate, hsh], trivial,
      { stock := h.stock_frame rfl rfl rfl
        idle := h.idle_frame fun j hj => by cases hj
        records := h.records.frame rfl (fun _ hb => hb) rfl rfl
        charged := h.charged_frame rfl
        shipped := fun _ => by simp [Progress.note]
        paid := ?_ }⟩
    · intro hc
      refine ⟨(h.paid (confirmed_frame hc rfl)).1, ?_⟩
      show (shipping'.shipments o.id).isSome = true
      simp [hshipments]

theorem run_resolves (h : RaceInv o base w gs) {c : Call}
    (hp : Allowed ⟨True, True, True⟩ o (gs none) c) (hg : KeepsClear o.id (none : Option κ) (gs none) c w) :
    RaceResolves o base w gs none c := by
  cases c with
  | create _ _ _ _ => exact hp.elim
  | nonTerminal => exact hp.elim
  | fields _ => exact hp.elim
  | cancel _ => exact hp.elim
  | get id =>
    obtain ⟨rfl, -⟩ := hp
    exact h.get_resolves fun j hj => by cases hj
  | updateStatus id status type detail =>
    obtain ⟨rfl, hn⟩ := hp
    refine h.updateStatus_resolves hn.not_confirmed ?_ fun _ hst => ?_
    · rintro rfl r hr
      rwa [hn.reservations] at hr
    · subst hst
      exact hg
  | publish id type detail => exact h.publish_resolves id type detail
  | reserve warehouseId sku qty =>
    obtain ⟨hI, -⟩ := hp
    exact h.reserve_resolves warehouseId sku qty hI.released hI.committed
  | release warehouseId sku id =>
    obtain ⟨done, b, todo, htaken, hb, -⟩ := hp
    have hres := h.release_resolves (i := none) (b := b) (by simp [htaken])
    rwa [Booking.id, hb] at hres
  | commit warehouseId sku id =>
    obtain ⟨done, b, todo, htaken, hb, -⟩ := hp
    have hres := h.commit_resolves (b := b) (by simp [htaken]) (by rw [Booking.id, hb]; exact hg)
    rwa [Booking.id, hb] at hres
  | charge id amount =>
    obtain ⟨rfl, -⟩ := hp
    exact h.charge_resolves amount
  | schedule id warehouseId =>
    obtain ⟨rfl, -⟩ := hp
    exact h.schedule_resolves warehouseId
  | refund id =>
    obtain ⟨rfl, paymentId, hI⟩ := hp
    refine h.refund_resolves ?_
    simp [hI.written, Write.reserved, Write.paid, Write.compensating, Write.confirmed]

theorem recovery_resolves (h : RaceInv o base w gs) {j : κ} {c : Call}
    (hp : RecoverAllowed o.id (fun g order => order ∈ g.listed) (gs (some j)) c)
    (hg : KeepsClear o.id (some j) (gs (some j)) c w) : RaceResolves o base w gs (some j) c := by
  cases c with
  | create _ _ _ _ => exact hp.elim
  | reserve _ _ _ => exact hp.elim
  | commit _ _ _ => exact hp.elim
  | charge _ _ => exact hp.elim
  | schedule _ _ => exact hp.elim
  | nonTerminal => exact h.nonTerminal_resolves j
  | fields order => exact h.fields_resolves j hp.1 hp.2
  | get id =>
    obtain ⟨rfl, hseen⟩ := hp
    exact h.get_resolves fun _ _ => hseen
  | updateStatus id status type detail =>
    obtain ⟨rfl, hw⟩ := hp
    have htype : type ≠ .inventoryReserved := by
      rcases hw with ⟨-, hw⟩ | ⟨-, d, hw⟩
      · rw [show type = .compensating from congrArg Write.type hw]
        decide
      · rw [show type = .cancelled from congrArg Write.type hw]
        decide
    exact h.updateStatus_resolves (h.not_confirmed hg) (fun ht => absurd ht htype) fun hi => by cases hi
  | publish id type detail => exact h.publish_resolves id type detail
  | refund id =>
    obtain ⟨rfl, -⟩ := hp
    exact h.refund_resolves (h.not_confirmed hg)
  | cancel id =>
    obtain ⟨rfl, -⟩ := hp
    exact h.cancel_resolves j (h.not_confirmed hg)
  | release warehouseId sku id =>
    obtain ⟨entry, hseen, hr⟩ := hp
    obtain ⟨b, hb, hbr⟩ := List.mem_map.mp (h.records.seen hseen _ hr)
    have hres := h.release_resolves (i := some j) hb
    rwa [Booking.id, hbr] at hres

end RaceInv

theorem race_sound (o : Order) (base : World) :
    Sound (clearSagas κ o.id) (raceContract o) (RaceInv o base) := by
  refine Sound.of_resolves (fun {s gs i c} hI hp hg => ?_) fun {s s' gs} hI he => ?_
  · cases i with
    | none => exact hI.run_resolves hp.2 hg
    | some j => exact hI.recovery_resolves hp.2 hg
  · obtain ⟨seconds, ms, rfl, hl⟩ := he
    exact ⟨hI.stock.lookups hl fun _ h => h, hI.idle, hI.records, hI.charged, hI.shipped, hI.paid⟩

omit [DecidableEq κ] in
theorem Starts.raceInv (h : Starts o w) : RaceInv o w w fun _ : Option κ => {} where
  stock :=
    { own := fun _ => List.nodup_nil
      apart := fun hb => by cases hb
      used := fun hb => by cases hb
      vacant := h.vacant _
      qty := fun hb => by cases hb
      gone := fun hb => by cases hb
      others := fun _ => rfl
      conserved := fun item => by simp [Progress.tied] }
  idle _ := rfl
  records :=
    { stored := by
        refine ⟨o, h.stored (), rfl, fun r hr => ?_, Or.inl ⟨fun _ => rfl, rfl⟩, fun hc => by cases hc⟩
        simp [reservationsFromHistory, h.noHistory] at hr
      listed := fun hmem => by cases hmem
      seen := fun hs => by cases hs }
  charged hs := by simp [h.noCharge] at hs
  shipped hs := by simp [h.noShipment] at hs
  paid hc := by cases hc

/-! ## All or nothing -/

theorem Progress.HasRecovered.ended (h : g.HasRecovered) : g.Ended := by
  cases h with
  | leftAlone _ hg => exact ⟨hg.taken, Or.inl hg.written⟩
  | recovered _ hg _ =>
    exact ⟨hg.taken, Or.inr (by simp [Progress.status, hg.written, Write.cancelled])⟩

/-- A recovery of the order from the snapshot that it is handed. -/
theorem recoverListed_outline (id : OrderId) :
    RecoverOutline id (fun g order => order ∈ g.listed) (fun _ => Progress.Ended) (recoverListed id)
      {} := by
  unfold recoverListed
  refine ⟨⟨rfl, rfl⟩, fun stuck _ => ?_⟩
  dsimp only [Prog.bind]
  cases hfind : stuck.find? fun order => order.id = id with
  | none => exact ⟨rfl, Or.inl rfl⟩
  | some order =>
    have hid : order.id = id := by simpa using List.find?_some hfind
    have hmem : order ∈ stuck := List.mem_of_find?_eq_some hfind
    refine Outline.bind (recoverStuck_outline hid ?_ rfl rfl rfl rfl) fun _ g' hg' => hg'.ended
    simpa [Progress.note] using hmem

/-- What is left of the programs of a race once they have returned. -/
def RaceEnded (o : Order) : Option κ → Progress → Prop
  | none => Settled ⟨True, True, True⟩ o
  | some _ => Progress.Ended

omit [Fintype κ] [DecidableEq κ] in
theorem race_outline (o : Order) (i : Option κ) :
    Outline Progress.note (raceContract o i) (fun _ => RaceEnded o i) (race o.id i) {} := by
  cases i with
  | none => exact Outline.bind (run_outline ⟨True, True, True⟩ o) fun _ _ hg => hg
  | some j => exact recoverListed_outline o.id

omit [DecidableEq κ] in
theorem RaceInv.tied_eq (h : RaceInv o base w gs) (item : String) :
    units w.redis item + (gs none).tied w.redis item = units base.redis item := by
  have hidle : ∀ j, (gs (some j)).tied w.redis item = 0 := by
    intro j
    simp [Progress.tied, h.idle j]
  have hlevel := h.stock.conserved item
  rw [Fintype.sum_option] at hlevel
  simpa [hidle] using hlevel

omit [DecidableEq κ] in
theorem RaceInv.of_confirmed (h : RaceInv o base w gs) (hfill : Fills o.lines (gs none).taken)
    {paymentId shipmentId : String}
    (hg : (gs none).Is [.reserved (gs none).taken, .paid paymentId, .scheduled shipmentId, .confirmed]
      true true [] ((gs none).taken.map Booking.id)) : AllOrNothing o base w := by
  have hconf : Write.confirmed ∈ (gs none).written := by simp [hg.written]
  obtain ⟨o', hget, -, -, -, hstatus⟩ := h.records.stored
  refine Or.inl ⟨by simp [storedStatus, hget, hstatus hconf], fun warehouseId sku => ?_, h.paid hconf⟩
  have htied : (gs none).tied w.redis (itemName warehouseId sku) =
      lineDemand o.lines (itemName warehouseId sku) := by
    rw [tied_of_kept fun b hb => Or.inr ?_, hfill.demand]
    rw [hg.committed]
    exact List.mem_map_of_mem hb
  have := h.tied_eq (itemName warehouseId sku)
  rw [getAvailable_eq, getAvailable_eq]
  omega

omit [DecidableEq κ] in
theorem RaceInv.of_cancelled (h : RaceInv o base w gs) {before : List Write} {detail : EventDetail}
    (hg : (gs none).Is (before ++ [.compensating, .cancelled detail]) false false
      ((gs none).taken.map Booking.id) []) (hend : ∀ j, (gs (some j)).Ended) :
    AllOrNothing o base w := by
  obtain ⟨o', hget, -, -, hstatus, -⟩ := h.records.stored
  have hcancelled : o'.status = .CANCELLED := by
    rcases hstatus with ⟨hnone, -⟩ | ⟨i, hi⟩
    · have := hnone none
      simp [hg.written] at this
    · cases i with
      | none => simpa [Progress.status, hg.written, Write.cancelled, eq_comm] using hi
      | some j =>
        rcases (hend j).2 with hno | hst
        · simp [Progress.status, hno] at hi
        · rw [hst] at hi
          exact (Option.some.inj hi).symm
  have hgone : ∀ b ∈ (gs none).taken, held w.redis b.id = none := by
    intro b hb
    refine h.stock.gone hb (Or.inl ?_)
    rw [hg.released]
    exact List.mem_map_of_mem hb
  refine Or.inr ⟨by simp [storedStatus, hget, hcancelled], fun warehouseId sku => ?_, ?_, ?_⟩
  · have hlevel := h.tied_eq (itemName warehouseId sku)
    rw [tied_of_gone hgone hg.committed] at hlevel
    rw [getAvailable_eq, getAvailable_eq]
    omega
  · cases hc : w.payments.charges o.id with
    | none => rfl
    | some p =>
      have := h.charged (by rw [hc]; rfl)
      rw [hg.charged] at this
      cases this
  · cases hs : w.shipping.shipments o.id with
    | none => rfl
    | some s =>
      have := h.shipped (by rw [hs]; rfl)
      rw [hg.shipped] at this
      cases this

/-! ### A race -/

/-- The run of the order of two units, and a recovery that was handed it as it was created. -/
def soloRace : Pool participants (Option (Fin 1)) SagaError World Progress (Option Order) :=
  ⟨soloWorld, fun _ => {}, race soloOrder.id⟩

/-- The recovery ends while the run has only reserved. -/
def earlyRecovery : List (Option (Fin 1)) :=
  [some 0, none, none] ++ List.replicate 7 (some 0) ++ List.replicate 12 none

/-- The recovery goes on when the run has ended. -/
def lateRecovery : List (Option (Fin 1)) :=
  [some 0, some 0] ++ List.replicate 14 none ++ List.replicate 6 (some 0)

/-- A live run and any number of recoveries of its order, each from any snapshot it was handed before or
while the run goes on: if they keep clear of each other, the outcome is all or nothing. -/
theorem race_all_or_nothing (h : Starts o w)
    {P : Pool participants (Option κ) SagaError World Progress (Option Order)}
    (hr : (clearSagas κ o.id).Reaches ⟨w, fun _ => {}, race o.id⟩ P)
    (hret : ∀ i, ∃ r, P.prog i = .ret r) : AllOrNothing o w P.state := by
  obtain ⟨hI, ho⟩ := (race_sound o w).reaches hr h.raceInv (race_outline o)
  have hend : ∀ i, RaceEnded o i (P.aux i) := by
    intro i
    obtain ⟨r, hi⟩ := hret i
    have hoi := ho i
    rwa [hi] at hoi
  rcases hend none with ⟨hfill, hg⟩ | ⟨-, hg⟩
  · exact hI.of_confirmed hfill hg
  · exact hI.of_cancelled hg fun j => hend (some j)

/-- The recovery cancels, the run goes on and confirms: everything is consumed, charged and shipped. -/
theorem race_of_earlyRecovery :
    let P := (clearSagas (Fin 1) soloOrder.id).schedule soloRace earlyRecovery
    (clearSagas (Fin 1) soloOrder.id).Reaches soloRace P ∧
      storedStatus P.state "order" = some .CONFIRMED ∧ AllOrNothing soloOrder soloWorld P.state := by
  intro P
  have hadmits : (clearSagas (Fin 1) soloOrder.id).AdmitsAll soloRace earlyRecovery := by
    decide +kernel
  have hr := reaches_admitted earlyRecovery soloRace hadmits
  have hret : ∀ i, (P.prog i).returned = true := by decide +kernel
  exact ⟨hr, by decide +kernel,
    race_all_or_nothing solo_starts hr fun i => Prog.returned_iff.mp (hret i)⟩

/-- If the recovery is late, the order ends cancelled, and is charged, shipped and consumed. -/
theorem race_of_lateRecovery : ¬ ∀ (o : Order) (w : World)
    (P : Pool participants (Option (Fin 1)) SagaError World Progress (Option Order)), Starts o w →
    (sagas (Option (Fin 1))).Reaches ⟨w, fun _ => {}, race o.id⟩ P →
    (∀ i, ∃ r, P.prog i = .ret r) → AllOrNothing o w P.state := by
  intro hall
  have hr := reaches_schedule (M := sagas (Option (Fin 1))) (fun _ _ _ _ => trivial) lateRecovery
    soloRace
  have hret : ∀ i, (((sagas (Option (Fin 1))).schedule soloRace lateRecovery).prog i).returned =
      true := by decide +kernel
  rcases hall _ _ _ solo_starts hr fun i => Prog.returned_iff.mp (hret i) with
    ⟨hstatus, -⟩ | ⟨-, -, hcharge, -⟩
  · exact absurd hstatus (by decide +kernel)
  · exact absurd hcharge (by decide +kernel)

end Race

end SupplyChain
