import SupplyChain.Orders.PgReads
import SupplyChain.Orders.Proofs.OrderStoreProofs
import SupplyChain.Orders.Proofs.PgOrderStoreProofs

/-!
# Proofs: the orders that reads return

The row of an order has the status of its latest event. As long as the history of a found row is awaited,
the order keeps the status that the row had.
-/

namespace SupplyChain

open Collections

namespace Tables

variable {pg : Postgres} {t t' : Tables pg} {id : OrderId} {status : OrderStatus}

/-- The status that belongs to the latest event of an order. -/
def Latest (t : Tables pg) (id : OrderId) (status : OrderStatus) : Prop :=
  ((∀ e ∈ t.order_events, e.order_id ≠ id) ∧ status = .CREATED) ∨
    ∃ e ∈ t.order_events, e.order_id = id ∧ e.type.status = status ∧
      ∀ e' ∈ t.order_events, e'.order_id = id → e'.Before e

theorem getLast?_sorted {e : OrderEventRow} (he : e ∈ t.order_events) (hid : e.order_id = id)
    (hlatest : ∀ e' ∈ t.order_events, e'.order_id = id → e'.Before e) :
    ((t.order_events.filter fun e => e.order_id = id).insertionSort OrderEventRow.Before).getLast? =
      some e := by
  generalize hsorted : (t.order_events.filter fun e => e.order_id = id).insertionSort
    OrderEventRow.Before = sorted
  have hmem : ∀ e', e' ∈ sorted ↔ e' ∈ t.order_events ∧ e'.order_id = id := by
    intro e'
    rw [← hsorted, List.mem_insertionSort, List.mem_filter, decide_eq_true_eq]
  have hpairwise : sorted.Pairwise OrderEventRow.Before :=
    hsorted ▸ List.pairwise_insertionSort OrderEventRow.Before _
  have hin := (hmem e).mpr ⟨he, hid⟩
  obtain ⟨last, hlast⟩ : ∃ last, sorted.getLast? = some last :=
    ⟨_, List.getLast?_eq_some_getLast (List.ne_nil_of_mem hin)⟩
  obtain ⟨before, rfl⟩ := List.getLast?_eq_some_iff.mp hlast
  obtain ⟨hlastmem, hlastid⟩ := (hmem last).mp (by simp)
  rw [hlast]
  rcases List.mem_append.mp hin with hbefore | hsingle
  · have hle := (List.pairwise_append.mp hpairwise).2.2 e hbefore last (by simp)
    rw [before_antisymm he hlastmem hle (hlatest last hlastmem hlastid)]
  · rw [List.mem_singleton.mp hsingle]

/-- A history that is fetched ends with the latest event. -/
theorem Latest.fetched (h : t.Latest id status) {ids : List OrderId}
    {history : InsertionMap OrderId (List OrderEvent)} (hfetch : t.eventsFor ids = some history)
    (hid : id ∈ ids) (hu : pg.uuid id = some id) :
    status = lastStatus (((history.get id).getD []).map OrderEvent.type) := by
  rw [eventsFor_getD hfetch hid hu, lastStatus, List.map_map, List.getLast?_map, Option.map_map]
  rcases h with ⟨hnone, rfl⟩ | ⟨e, he, rfl, rfl, hlatest⟩
  · have hempty : t.order_events.filter (fun e => e.order_id = id) = [] := by
      rw [List.filter_eq_nil_iff]
      intro e he
      simpa using hnone e he
    rw [hempty]
    rfl
  · rw [getLast?_sorted he rfl hlatest]
    rfl

/-- A transaction whose event is not dated back, or that does not change the status, leaves the row with
the status of the latest event. -/
theorem Latest.updateStatus {u : OrderId} {event : OrderEvent}
    (hevents : t'.order_events =
      t.order_events ++ [⟨t.sequence, u, event.type, event.detail, event.at⟩])
    (h : t.Latest u status)
    (horderly : status = event.type.status ∨ ∀ e ∈ t.order_events, e.order_id = u → e.at ≤ event.at) :
    t'.Latest u event.type.status := by
  have hnew : ∀ e ∈ t.order_events, e.at ≤ event.at →
      e.Before ⟨t.sequence, u, event.type, event.detail, event.at⟩ := by
    intro e he hle
    have hlt := t.order_events_sequence e he
    unfold OrderEventRow.Before
    dsimp only
    omega
  have hlast : (∀ e ∈ t.order_events, e.order_id = u → e.at ≤ event.at) →
      t'.Latest u event.type.status := by
    intro hdated
    refine Or.inr ⟨⟨t.sequence, u, event.type, event.detail, event.at⟩, ?_, rfl, rfl, ?_⟩
    · rw [hevents]
      exact List.mem_append_right _ (List.mem_singleton.mpr rfl)
    · intro e' he' hid
      rw [hevents] at he'
      rcases List.mem_append.mp he' with hold | hlast
      · exact hnew e' hold (hdated e' hold hid)
      · rw [List.mem_singleton.mp hlast]
        exact Or.inr ⟨rfl, Nat.le_refl _⟩
  rcases horderly with hsame | hdated
  · rcases h with ⟨hnone, -⟩ | ⟨e, he, hid, hstatus, hlatest⟩
    · exact hlast fun e he hid => absurd hid (hnone e he)
    · by_cases hle : e.at ≤ event.at
      · refine hlast fun e' he' hid' => ?_
        have hbefore := hlatest e' he' hid'
        unfold OrderEventRow.Before at hbefore
        omega
      · -- the event is dated back, and another with its status remains the latest
        refine Or.inr ⟨e, ?_, hid, hstatus.trans hsame, ?_⟩
        · rw [hevents]
          exact List.mem_append_left _ he
        · intro e' he' hid'
          rw [hevents] at he'
          rcases List.mem_append.mp he' with hold | hback
          · exact hlatest e' hold hid'
          · rw [List.mem_singleton.mp hback]
            exact Or.inl (Nat.lt_of_not_le hle)
  · exact hlast hdated

theorem Latest.of_events (h : t.Latest id status)
    (hevents : ∀ e, e.order_id = id → (e ∈ t'.order_events ↔ e ∈ t.order_events)) :
    t'.Latest id status := by
  rcases h with ⟨hnone, hstatus⟩ | ⟨e, he, hid, hstatus, hlatest⟩
  · exact Or.inl ⟨fun e he hid => hnone e ((hevents e hid).mp he) hid, hstatus⟩
  · exact Or.inr ⟨e, (hevents e hid).mpr he, hid, hstatus,
      fun e' he' hid' => hlatest e' ((hevents e' hid').mp he') hid'⟩

end Tables

/-! ## The invariant of a run -/

/-- A read looks for the rows that it has found, and these agree with what it fetches. -/
structure Reading.Inv {pg : Postgres} (t : Tables pg) (r : Reading) : Prop where
  ids : ∀ found ∈ r.found, found.2 = found.1.id ∧ pg.uuid found.1.id = some found.1.id
  awaited : r.history = none → ∀ found ∈ r.found, ∃ row ∈ t.orders,
    row.id = found.1.id ∧ row.status = found.1.status
  fetched : ∀ {history}, r.history = some history → ∀ found ∈ r.found,
    found.1.status = lastStatus (((history.get found.1.id).getD []).map OrderEvent.type)

namespace PgReads

variable {pg : Postgres} {s s' : PgReads pg} {t t' : Tables pg} {r : Reading}

/-- What the tables and the reads under way always satisfy. -/
structure Inv (s : PgReads pg) : Prop where
  latest : ∀ row ∈ s.tables.orders, s.tables.Latest row.id row.status
  reading : ∀ r ∈ s.readings, r.Inv s.tables

theorem inv_empty : Inv (empty : PgReads pg) where
  latest row hrow := by cases hrow
  reading r hr := by cases hr

theorem start_inv {found : List (OrderRow × OrderId)}
    (h : ∀ f ∈ found, f.1 ∈ t.orders ∧ f.2 = f.1.id) : (Reading.start found).Inv t := by
  unfold Reading.start
  split
  · rename_i hempty
    obtain rfl := List.isEmpty_iff.mp hempty
    exact ⟨fun f hf => (by cases hf), fun hnone => (by cases hnone), fun _ f hf => (by cases hf)⟩
  · exact
      { ids := fun f hf => ⟨(h f hf).2, t.orders_uuid f.1 (h f hf).1⟩
        awaited := fun _ f hf => ⟨f.1, (h f hf).1, rfl, rfl⟩
        fetched := fun hsome => by cases hsome }

theorem hydrateAll_inv {rows : List OrderRow} (h : ∀ row ∈ rows, row ∈ t.orders) :
    (Reading.hydrateAll rows).Inv t := by
  refine start_inv fun f hf => ?_
  obtain ⟨row, hrow, rfl⟩ := List.mem_map.mp hf
  exact ⟨h row hrow, rfl⟩

theorem Inv.start (h : Inv s) (hr : r.Inv s.tables) :
    Inv { s with readings := s.readings ++ [r] } where
  latest := h.latest
  reading r' hr' := by
    rcases List.mem_append.mp hr' with hold | hnew
    · exact h.reading r' hold
    · rw [List.mem_singleton.mp hnew]
      exact hr

theorem Inv.set (h : Inv s) {i : Nat} (hr : r.Inv s.tables) :
    Inv { s with readings := s.readings.set i r } where
  latest := h.latest
  reading r' hr' := by
    rcases List.mem_or_eq_of_mem_set hr' with hold | rfl
    · exact h.reading r' hold
    · exact hr

theorem Inv.create (h : Inv s) {order : Order} (hcreated : order.status = .CREATED)
    (ht : s.tables.create order = some t) : Inv { s with tables := t } where
  latest row hrow := by
    obtain ⟨b, -, u, -, hfresh, horders, -, hevents⟩ := Tables.create_spec ht
    dsimp only at hrow ⊢
    rw [horders] at hrow
    rcases List.mem_append.mp hrow with hold | hnew
    · exact (h.latest row hold).of_events fun e _ => by rw [hevents]
    · rw [List.mem_singleton.mp hnew]
      refine Or.inl ⟨fun e he hid => hfresh ?_, hcreated⟩
      rw [hevents] at he
      rw [show u = e.order_id from hid.symm]
      exact s.tables.order_events_order e he
  reading r hr := by
    obtain ⟨b, -, u, -, -, horders, -⟩ := Tables.create_spec ht
    obtain ⟨hids, hawaited, hfetched⟩ := h.reading r hr
    refine ⟨hids, fun hnone f hf => ?_, hfetched⟩
    obtain ⟨row, hrow, hsame⟩ := hawaited hnone f hf
    refine ⟨row, ?_, hsame⟩
    rw [horders]
    exact List.mem_append_left _ hrow

theorem Inv.transition (h : Inv s) {id : OrderId} {type : EventType} {detail : EventDetail} {date : Nat}
    (horderly : s.Orderly (.transition id type detail date))
    (ht : s.tables.updateStatus id type.status ⟨type, date, detail⟩ = some t) :
    Inv { s with tables := t } := by
  obtain ⟨u, hu, hmem, -, horders, -, hevents⟩ := Tables.updateStatus_spec ht
  have hother : ∀ row ∈ s.tables.orders, row.id ≠ u → t.Latest row.id row.status := by
    intro row hrow hne
    refine (h.latest row hrow).of_events fun e hid => ?_
    rw [hevents, List.mem_append, List.mem_singleton]
    refine or_iff_left fun heq => hne ?_
    rw [← hid, heq]
  refine ⟨fun row hrow => ?_, fun r hr => ?_⟩
  · dsimp only at hrow ⊢
    rw [horders] at hrow
    obtain ⟨old, hold, rfl⟩ := List.mem_map.mp hrow
    unfold OrderRow.update
    by_cases hid : old.id = u
    · subst hid
      rw [if_pos rfl]
      refine Tables.Latest.updateStatus hevents (h.latest old hold) ?_
      refine horderly.imp (fun hsame => hsame old hold hu) fun hdated e he heq => ?_
      exact hdated.1 e he (heq ▸ hu)
    · rw [if_neg hid]
      exact hother old hold hid
  · obtain ⟨hids, hawaited, hfetched⟩ := h.reading r hr
    refine ⟨hids, fun hnone f hf => ?_, hfetched⟩
    obtain ⟨row, hrow, hid, hstatus⟩ := hawaited hnone f hf
    refine ⟨row.update u type.status, ?_, (row.update_id u _).trans hid, ?_⟩
    · rw [horders]
      exact List.mem_map_of_mem hrow
    · unfold OrderRow.update
      split
      · -- the order of an awaited row keeps its status
        rename_i heq
        rcases horderly with hsame | ⟨-, hfree⟩
        · exact (hsame row hrow (heq ▸ hu)).symm.trans hstatus
        · refine absurd ?_ (hfree r hr (by rw [hnone]; rfl) f hf)
          rw [← hid, heq]
          exact hu
      · exact hstatus

theorem Inv.step (h : Inv s) {a : PgAction} (horderly : s.Orderly a) (hs : s.step a = some s') :
    Inv s' := by
  cases a with
  | createOrder id customerId lines amountCents businessId now =>
    obtain ⟨t, ht, rfl⟩ := Option.map_eq_some_iff.mp hs
    exact h.create rfl ht
  | transition id type detail date =>
    obtain ⟨t, ht, rfl⟩ := Option.map_eq_some_iff.mp hs
    exact h.transition horderly ht
  | get id scope =>
    obtain ⟨row, hrow, rfl⟩ := Option.map_eq_some_iff.mp hs
    obtain ⟨u, hu, hrest⟩ := Option.bind_eq_some_iff.mp hrow
    obtain ⟨visible, -, hfound⟩ := Option.bind_eq_some_iff.mp hrest
    obtain rfl := Option.some.inj hfound
    refine h.start (start_inv fun f hf => ?_)
    obtain ⟨row, hrow, rfl⟩ := List.mem_map.mp hf
    have hmem := List.mem_of_head? (Option.mem_toList.mp hrow)
    obtain ⟨hin, hmatch⟩ := List.mem_filter.mp hmem
    rw [Bool.and_eq_true, decide_eq_true_eq] at hmatch
    refine ⟨hin, ?_⟩
    rcases horderly with hnone | hsome
    · cases hnone.symm.trans hu
    · exact (Option.some.inj (hsome.symm.trans hu)).trans hmatch.1.symm
  | all ro scope =>
    obtain ⟨rows, hrows, rfl⟩ := Option.map_eq_some_iff.mp hs
    obtain ⟨visible, -, rfl⟩ := Option.map_eq_some_iff.mp hrows
    exact h.start (hydrateAll_inv fun row hrow =>
      List.mem_of_mem_filter (Tables.mem_byCreation.mp hrow))
  | nonTerminal ro =>
    obtain rfl := Option.some.inj hs
    exact h.start (hydrateAll_inv fun row hrow =>
      List.mem_of_mem_filter (Tables.mem_byCreation.mp hrow))
  | linesFor reading ro =>
    obtain ⟨r, hr, hrest⟩ := Option.bind_eq_some_iff.mp hs
    obtain ⟨lines, -, hset⟩ := Option.bind_eq_some_iff.mp hrest
    split at hset
    · obtain rfl := Option.some.inj hset
      obtain ⟨hids, hawaited, hfetched⟩ := h.reading r (List.mem_of_getElem? hr)
      exact h.set ⟨hids, hawaited, hfetched⟩
    · cases hset
  | eventsFor reading =>
    obtain ⟨r, hr, hrest⟩ := Option.bind_eq_some_iff.mp hs
    obtain ⟨history, hhistory, hset⟩ := Option.bind_eq_some_iff.mp hrest
    split at hset
    · rename_i hnone
      obtain rfl := Option.some.inj hset
      obtain ⟨hids, hawaited, -⟩ := h.reading r (List.mem_of_getElem? hr)
      refine h.set ⟨hids, fun hsome => (by cases hsome), fun hsome f hf => ?_⟩
      obtain rfl := Option.some.inj hsome
      obtain ⟨row, hrow, hid, hstatus⟩ := hawaited (Option.isNone_iff_eq_none.mp hnone) f hf
      obtain ⟨hkey, hu⟩ := hids f hf
      have hmem : f.1.id ∈ r.orderIds := hkey ▸ List.mem_map_of_mem hf
      rw [← hstatus]
      exact Tables.Latest.fetched (hid ▸ h.latest row hrow) hhistory hmem hu
    · cases hset

theorem Inv.run (h : Inv s) {actions : List PgAction} (horderly : OrderlyRun actions s)
    (hr : s.run actions = some s') : Inv s' := by
  induction actions generalizing s with
  | nil =>
    obtain rfl := Option.some.inj hr
    exact h
  | cons a actions ih =>
    rw [PgReads.run, List.foldlM_cons] at hr
    obtain ⟨s₁, hs, hrest⟩ := Option.bind_eq_some_iff.mp hr
    exact ih (h.step horderly.1 hs) (horderly.2 s₁ hs) hrest

theorem consistent_of_returned (h : r.Inv t) {orders : List Order} (hr : r.returned = some orders)
    {order : Order} (ho : order ∈ orders) : order.Consistent := by
  obtain ⟨lines, -, hrest⟩ := Option.bind_eq_some_iff.mp hr
  obtain ⟨history, hhistory, hreturn⟩ := Option.bind_eq_some_iff.mp hrest
  obtain rfl := Option.some.inj hreturn
  obtain ⟨⟨row, id⟩, hf, rfl⟩ := List.mem_map.mp ho
  have hid : id = row.id := (h.ids _ hf).1
  subst hid
  exact h.fetched hhistory _ hf

theorem inMemory_consistent (actions : List PgAction) {id : OrderId} {o : Order}
    (h : (actions.foldl OrderStore.step (.empty .inMemory)).get id = some o) : o.Consistent := by
  have hrun : ∀ (actions : List PgAction) (store : OrderStore),
      (∀ {id o}, store.get id = some o → o.Consistent) →
      ∀ {id o}, (actions.foldl OrderStore.step store).get id = some o → o.Consistent := by
    intro actions
    induction actions with
    | nil => exact fun store hstore => hstore
    | cons a actions ih =>
      intro store hstore
      refine ih (store.step a) fun {id o} hget => ?_
      cases a with
      | createOrder id' customerId lines amountCents businessId now =>
        rw [OrderStore.step, OrderStore.create, OrderStore.get_put] at hget
        split at hget
        · rw [← Option.some.inj hget]
          rfl
        · exact hstore hget
      | transition id' type detail date =>
        rw [OrderStore.step] at hget
        cases hold : store.get id' with
        | none =>
          rw [OrderStore.updateStatus, hold] at hget
          exact hstore hget
        | some old =>
          obtain ⟨store', hupdate, -, hnew⟩ :=
            OrderStore.updateStatus_of_get hold type.status ⟨type, date, detail⟩
          rw [hupdate, Option.getD_some, hnew] at hget
          split at hget
          · rw [← Option.some.inj hget, Order.Consistent, Order.types, lastStatus]
            simp
          · exact hstore hget
      | get | all | nonTerminal | linesFor | eventsFor => exact hstore hget
  exact hrun actions (.empty .inMemory) (fun hget => by cases hget) h

/-- In every orderly run, every order that a read returns has the status that was written with the last
entry of its history. In memory, every order always has. -/
theorem reads_consistent {actions : List PgAction} (horderly : OrderlyRun actions (empty : PgReads pg))
    (hr : (empty : PgReads pg).run actions = some s) (hreading : r ∈ s.readings) {orders : List Order}
    (hreturned : r.returned = some orders) {order : Order} (ho : order ∈ orders) :
    order.Consistent ∧ ∀ {id : OrderId} {o : Order},
      (actions.foldl OrderStore.step (.empty .inMemory)).get id = some o → o.Consistent :=
  ⟨consistent_of_returned ((inv_empty.run horderly hr).reading r hreading) hreturned ho,
    inMemory_consistent actions⟩

/-- A UUID. -/
def sampleId : OrderId := "00000000-0000-4000-8000-00000000000a"

/-- An order of one unit is created. -/
def sampleCreation : PgAction := .createOrder sampleId "customer" [⟨"sku", 1, "w1"⟩] 100 none 1

/-- A read between two transitions. -/
def quietRead : List PgAction :=
  [sampleCreation, .transition sampleId .inventoryReserved {} 2, .get sampleId none,
    .linesFor 0 .inserted, .eventsFor 0, .transition sampleId .paymentCharged {} 3]

theorem quietRead_consistent : ∃ s, (empty : PgReads .plain).run quietRead = some s ∧
    ∃ r ∈ s.readings, ∃ orders, r.returned = some orders ∧ ∃ order ∈ orders,
      order.Consistent ∧ ∀ {id : OrderId} {o : Order},
        (quietRead.foldl OrderStore.step (.empty .inMemory)).get id = some o → o.Consistent := by
  have hrun : ((empty : PgReads .plain).run quietRead).map
      (fun s => s.readings.map fun r => r.returned.map List.length) = some [some 1] := by
    decide +kernel
  obtain ⟨s, hr, hreadings⟩ := Option.map_eq_some_iff.mp hrun
  obtain ⟨r, hreading, hlength⟩ := List.map_eq_singleton_iff.mp hreadings
  obtain ⟨orders, hreturned, hone⟩ := Option.map_eq_some_iff.mp hlength
  obtain ⟨order, horder⟩ := List.length_eq_one_iff.mp hone
  have hmem : r ∈ s.readings := by rw [hreading]; exact List.mem_singleton.mpr rfl
  have hin : order ∈ orders := by rw [horder]; exact List.mem_singleton.mpr rfl
  exact ⟨s, hr, r, hmem, orders, hreturned, order, hin,
    reads_consistent (by decide +kernel) hr hmem hreturned hin⟩

/-- A read whose queries a transition comes between, transitions by replicas whose clocks differ, and a
read under another spelling of the id. -/
def disorderly : List (List PgAction) :=
  [[sampleCreation, .get sampleId none, .transition sampleId .inventoryReserved {} 2,
      .linesFor 0 .inserted, .eventsFor 0],
    [sampleCreation, .transition sampleId .inventoryReserved {} 9,
      .transition sampleId .paymentCharged {} 8, .all .inserted none, .eventsFor 0,
      .linesFor 0 .inserted],
    [sampleCreation, .transition sampleId .inventoryReserved {} 2,
      .get "00000000-0000-4000-8000-00000000000A" none, .linesFor 0 .inserted, .eventsFor 0]]

/-- Each returns an order whose status does not belong to its history. -/
theorem disorderly_returned : ∀ actions ∈ disorderly,
    ∃ s, (empty : PgReads .plain).run actions = some s ∧ ∃ r ∈ s.readings, ∃ orders,
      r.returned = some orders ∧ ∃ order ∈ orders, ¬ order.Consistent := by
  have hruns : ∀ actions ∈ disorderly,
      ((empty : PgReads .plain).run actions).map (fun s => s.readings.map fun r =>
        r.returned.map fun orders => orders.map fun order => decide order.Consistent) =
          some [some [false]] := by
    decide +kernel
  intro actions hactions
  obtain ⟨s, hr, hreadings⟩ := Option.map_eq_some_iff.mp (hruns actions hactions)
  obtain ⟨r, hreading, hread⟩ := List.map_eq_singleton_iff.mp hreadings
  obtain ⟨orders, hreturned, hone⟩ := Option.map_eq_some_iff.mp hread
  obtain ⟨order, horder, hfalse⟩ := List.map_eq_singleton_iff.mp hone
  refine ⟨s, hr, r, ?_, orders, hreturned, order, ?_, of_decide_eq_false hfalse⟩
  · rw [hreading]
    exact List.mem_singleton.mpr rfl
  · rw [horder]
    exact List.mem_singleton.mpr rfl

theorem disorderly_inconsistent : ¬ ∀ (pg : Postgres) (actions : List PgAction) (s : PgReads pg),
    empty.run actions = some s → ∀ r ∈ s.readings, ∀ orders, r.returned = some orders →
      ∀ order ∈ orders, order.Consistent := by
  intro hall
  obtain ⟨s, hr, r, hreading, orders, hreturned, order, horder, hnot⟩ :=
    disorderly_returned _ List.mem_cons_self
  exact hnot (hall .plain _ s hr r hreading orders hreturned order horder)

end PgReads

end SupplyChain
