import SupplyChain.Orders.Proofs.StoresAgreeProofs

/-!
# Proofs: what the tables hold for an order

An operation that is accepted changes the rows of its own order, and one that is rejected changes
nothing. A read finds the lines of an order in some order, and its events by their dates.
-/

namespace SupplyChain

open Collections

namespace Tables

variable {pg : Postgres} {t t' : Tables pg} {id : OrderId} {order : Order} {status : OrderStatus}
  {event : OrderEvent}

/-- The orders that there are. -/
def ids (t : Tables pg) : List OrderId := t.orders.map OrderRow.id

/-- The lines of an order, as they were inserted. -/
def ownLines (t : Tables pg) (id : OrderId) : List OrderLine :=
  (t.order_lines.filter fun r => r.order_id = id).map fun r => ⟨r.sku, r.qty, r.warehouse_id⟩

/-- The events of an order, as they were recorded. -/
def recorded (t : Tables pg) (id : OrderId) : List OrderEvent :=
  (t.order_events.filter fun r => r.order_id = id).map fun r => ⟨r.type, r.at, r.detail⟩

theorem row_ext {r r' : OrderRow} (hr : r ∈ t.orders) (hr' : r' ∈ t.orders) (h : r.id = r'.id) :
    r = r' :=
  List.inj_on_of_nodup_map t.orders_key hr hr' h

theorem uuid_of_mem (h : id ∈ t.ids) : pg.uuid id = some id := by
  obtain ⟨r, hr, rfl⟩ := List.mem_map.mp h
  exact t.orders_uuid r hr

theorem recorded_of_not_mem (h : id ∉ t.ids) : t.recorded id = [] := by
  rw [recorded, List.filter_eq_nil_iff.mpr, List.map_nil]
  intro e he heq
  exact h (of_decide_eq_true heq ▸ t.order_events_order e he)

theorem ownLines_of_not_mem (h : id ∉ t.ids) : t.ownLines id = [] := by
  rw [ownLines, List.filter_eq_nil_iff.mpr, List.map_nil]
  intro l hl heq
  exact h (of_decide_eq_true heq ▸ t.order_lines_order l hl)

/-! ## Operations -/

/-- The rows of an order that is inserted. -/
structure Inserted (t : Tables pg) (order : Order) (t' : Tables pg) : Prop where
  orders : t'.orders = t.orders ++ [order.row order.id order.businessId]
  lines : t'.order_lines = t.order_lines ++ order.lines.map (OrderLine.row order.id)
  recorded : ∀ id, t'.recorded id = t.recorded id

theorem perform_create (hu : pg.uuid order.id = some order.id)
    (hb : pg.uuidOrNull order.businessId = some order.businessId) (hfresh : order.id ∉ t.ids)
    (h : StoreOp.MeetsConstraints pg order) : t.Inserted order (t.perform (.create order)) := by
  obtain ⟨t', ht'⟩ := (create_iff_meets order hu hb hfresh).mpr h
  obtain ⟨b, hb', u, hu', -, horders, hlines, hevents⟩ := create_spec ht'
  obtain rfl := Option.some.inj (hu.symm.trans hu')
  obtain rfl := Option.some.inj (hb.symm.trans hb')
  rw [perform, ht', Option.getD_some]
  exact ⟨horders, hlines, fun id => by rw [Tables.recorded, hevents]; rfl⟩

theorem perform_create_rejected (hu : pg.uuid order.id = some order.id)
    (hb : pg.uuidOrNull order.businessId = some order.businessId) (hfresh : order.id ∉ t.ids)
    (h : ¬ StoreOp.MeetsConstraints pg order) : t.perform (.create order) = t := by
  rw [← create_iff_meets order hu hb hfresh] at h
  rw [perform]
  cases ht : t.create order with
  | none => rfl
  | some t' => exact absurd ⟨t', ht⟩ h

theorem map_update_ids (rows : List OrderRow) :
    (rows.map (OrderRow.update id status)).map OrderRow.id = rows.map OrderRow.id := by
  rw [List.map_map]
  exact List.map_congr_left fun r _ => OrderRow.update_id id status r

/-- The rows of an order whose status is set. -/
structure Updated (t : Tables pg) (id : OrderId) (status : OrderStatus) (event : OrderEvent)
    (t' : Tables pg) : Prop where
  orders : t'.orders = t.orders.map (OrderRow.update id status)
  lines : t'.order_lines = t.order_lines
  recorded : ∀ x, t'.recorded x = t.recorded x ++ if x = id then [event] else []

theorem Updated.ids (h : t.Updated id status event t') : t'.ids = t.ids := by
  rw [Tables.ids, h.orders, map_update_ids]
  rfl

theorem updateStatus_iff (t : Tables pg) (id : OrderId) (status : OrderStatus) (event : OrderEvent) :
    (∃ t', t.updateStatus id status event = some t') ↔
      ∃ u, pg.uuid id = some u ∧ u ∈ t.ids ∧ event.detail.storable = true := by
  constructor
  · rintro ⟨t', h⟩
    obtain ⟨u, hu, hmem, hstorable, -⟩ := updateStatus_spec h
    exact ⟨u, hu, hmem, hstorable⟩
  · rintro ⟨u, hu, hmem, hstorable⟩
    have hmem' : u ∈ (t.updateOrders u status).orders.map OrderRow.id := by
      show u ∈ (t.orders.map (OrderRow.update u status)).map OrderRow.id
      rw [map_update_ids]
      exact hmem
    rw [ids] at hmem
    rw [updateStatus, hu, Option.bind_some, if_pos hmem, insertEvent, dif_pos ⟨hstorable, hmem'⟩]
    exact ⟨_, rfl⟩

theorem perform_update (status : OrderStatus) (hmem : id ∈ t.ids)
    (hstorable : event.detail.storable = true) :
    t.Updated id status event (t.perform (.updateStatus id status event)) := by
  have hu := uuid_of_mem hmem
  obtain ⟨t', ht'⟩ := (updateStatus_iff t id status event).mpr ⟨id, hu, hmem, hstorable⟩
  obtain ⟨u, hu', -, -, horders, hlines, hevents⟩ := updateStatus_spec ht'
  obtain rfl := Option.some.inj (hu.symm.trans hu')
  rw [perform, ht', Option.getD_some]
  refine ⟨horders, hlines, fun x => ?_⟩
  rw [Tables.recorded, hevents, List.filter_append, List.map_append]
  by_cases hx : x = id
  · simp [Tables.recorded, hx]
  · simp [Tables.recorded, hx, Ne.symm hx]

theorem perform_update_rejected (h : ¬ ∃ u, pg.uuid id = some u ∧ u ∈ t.ids ∧
    event.detail.storable = true) : t.perform (.updateStatus id status event) = t := by
  rw [← updateStatus_iff t id status event] at h
  rw [perform]
  cases ht : t.updateStatus id status event with
  | none => rfl
  | some t' => exact absurd ⟨t', ht⟩ h

theorem perform_update_unstorable (t : Tables pg) (id : OrderId) (status : OrderStatus)
    (h : ¬ event.detail.storable = true) : t.perform (.updateStatus id status event) = t := by
  refine perform_update_rejected ?_
  rintro ⟨u, -, -, hstorable⟩
  exact h hstorable

/-! ## Reads -/

theorem get_of_uuid_none (ro : RowOrder) (scope : Scope) (hu : pg.uuid id = none) :
    t.get ro id scope = none := by
  unfold get orderFor
  rw [hu]
  rfl

theorem map_orderedInsert_at {e : OrderEventRow} {es : List OrderEventRow} (h : ∀ e' ∈ es, e.id ≤ e'.id) :
    (es.orderedInsert OrderEventRow.Before e).map (fun e => (⟨e.type, e.at, e.detail⟩ : OrderEvent)) =
      (es.map fun e => ⟨e.type, e.at, e.detail⟩).orderedInsert (fun x y => x.at ≤ y.at)
        ⟨e.type, e.at, e.detail⟩ := by
  induction es with
  | nil => rfl
  | cons e' es ih =>
    obtain ⟨hid, hids⟩ := List.forall_mem_cons.mp h
    have hiff : e.Before e' ↔ e.at ≤ e'.at := by
      unfold OrderEventRow.Before
      omega
    rw [List.map_cons, List.orderedInsert_cons, List.orderedInsert_cons]
    by_cases hat : e.at ≤ e'.at
    · rw [if_pos (hiff.mpr hat), if_pos hat]
      rfl
    · rw [if_neg (mt hiff.mp hat), if_neg hat, List.map_cons, ih hids]

/-- Events that are listed by their ids are sorted by their dates alone. -/
theorem map_insertionSort_at {es : List OrderEventRow} (h : es.Pairwise fun e e' => e.id < e'.id) :
    (es.insertionSort OrderEventRow.Before).map (fun e => (⟨e.type, e.at, e.detail⟩ : OrderEvent)) =
      (es.map fun e => ⟨e.type, e.at, e.detail⟩).insertionSort fun x y => x.at ≤ y.at := by
  induction es with
  | nil => rfl
  | cons e es ih =>
    obtain ⟨hid, hids⟩ := List.pairwise_cons.mp h
    have hfirst : ∀ e' ∈ es.insertionSort OrderEventRow.Before, e.id ≤ e'.id := by
      intro e' he'
      exact Nat.le_of_lt (hid e' ((List.mem_insertionSort _).mp he'))
    rw [List.insertionSort_cons, map_orderedInsert_at hfirst, ih hids, List.map_cons,
      List.insertionSort_cons]

/-- The history that a read finds for an order. -/
theorem historyOf_eq {us : List OrderId} (hid : id ∈ us) :
    t.historyOf us id = (t.recorded id).insertionSort fun x y => x.at ≤ y.at := by
  rw [historyOf, filter_sorted hid, map_insertionSort_at (t.order_events_key.filter _)]
  rfl

theorem historyOf_of_not_mem {us : List OrderId} (hid : id ∉ us) : t.historyOf us id = [] := by
  rw [historyOf, List.filter_eq_nil_iff.mpr, List.map_nil]
  intro e he heq
  obtain rfl := of_decide_eq_true heq
  exact hid (by simpa using List.of_mem_filter ((List.mem_insertionSort _).mp he))

/-- The lines that it finds. -/
theorem linesOf_perm (ro : RowOrder) {us : List OrderId} (hid : id ∈ us) :
    (t.linesOf ro us id).Perm (t.ownLines id) := by
  have hown : (t.order_lines.filter fun r => r.order_id ∈ us).filter (fun r => r.order_id = id) =
      t.order_lines.filter fun r => r.order_id = id := by
    rw [List.filter_filter]
    refine List.filter_congr fun r _ => ?_
    by_cases hr : r.order_id = id
    · simp [hr, hid]
    · simp [hr]
  have hperm := (ro.lines_perm (t.order_lines.filter fun r => r.order_id ∈ us)).filter
    fun r => r.order_id = id
  rw [hown] at hperm
  exact hperm.map _

end Tables

end SupplyChain
