import SupplyChain.Orders.PgOrderStore

/-!
# Proofs: what the statements of `PgOrderStore` do
-/

namespace SupplyChain

open Collections

/-- The row of an order as it is inserted. -/
def Order.row (order : Order) (id : OrderId) (business_id : Option String) : OrderRow :=
  ⟨id, order.customerId, business_id, order.amountCents, order.status, order.createdAt⟩

theorem OrderLine.order_id_of_mem {lines : List OrderLine} {u : OrderId} {l : OrderLineRow}
    (h : l ∈ lines.map (OrderLine.row u)) : l.order_id = u := by
  obtain ⟨line, -, rfl⟩ := List.mem_map.mp h
  rfl

namespace Tables

variable {pg : Postgres} {t t' : Tables pg} {id : OrderId} {order : Order}

/-! ## Transactions -/

theorem insertOrder_spec (h : t.insertOrder order = some t') :
    ∃ b, pg.uuidOrNull order.businessId = some b ∧ ∃ u, pg.uuid order.id = some u ∧
      (order.row u b).fits = true ∧ u ∉ t.orders.map OrderRow.id ∧
      t'.orders = t.orders ++ [order.row u b] ∧ t'.order_lines = t.order_lines ∧
      t'.order_events = t.order_events := by
  unfold insertOrder at h
  split at h
  · rename_i u b hu hb
    dsimp only at h
    split at h
    · rename_i hok
      obtain rfl := Option.some.inj h
      exact ⟨b, hb, u, hu, hok.1, hok.2, rfl, rfl, rfl⟩
    · cases h
  · cases h

theorem insertOrder_isSome {u : OrderId} {b : Option String} (hb : pg.uuidOrNull order.businessId = some b)
    (hu : pg.uuid order.id = some u) (hfits : (order.row u b).fits = true)
    (hfresh : u ∉ t.orders.map OrderRow.id) : ∃ t', t.insertOrder order = some t' := by
  unfold insertOrder
  split
  · rename_i u' b' hu' hb'
    obtain rfl := Option.some.inj (hu.symm.trans hu')
    obtain rfl := Option.some.inj (hb.symm.trans hb')
    dsimp only
    rw [dif_pos ⟨hfits, hfresh⟩]
    exact ⟨_, rfl⟩
  · rename_i hnone
    exact absurd hb (hnone u b hu)

theorem insertLine_spec {orderId : OrderId} {line : OrderLine}
    (h : t.insertLine orderId line = some t') :
    ∃ u, pg.uuid orderId = some u ∧ (line.row u).fits pg = true ∧
      (line.row u).key ∉ t.order_lines.map OrderLineRow.key ∧
      t'.order_lines = t.order_lines ++ [line.row u] ∧ t'.orders = t.orders ∧
      t'.order_events = t.order_events := by
  unfold insertLine at h
  split at h
  · cases h
  · rename_i u hu
    dsimp only at h
    split at h
    · rename_i hok
      obtain rfl := Option.some.inj h
      exact ⟨u, hu, hok.1, hok.2.1, rfl, rfl, rfl⟩
    · cases h

theorem insertLine_isSome {orderId u : OrderId} {line : OrderLine} (hu : pg.uuid orderId = some u)
    (hfits : (line.row u).fits pg = true)
    (hkey : (line.row u).key ∉ t.order_lines.map OrderLineRow.key)
    (horder : u ∈ t.orders.map OrderRow.id) : ∃ t', t.insertLine orderId line = some t' := by
  unfold insertLine
  split
  · rename_i hnone
    cases hu.symm.trans hnone
  · rename_i u' hu'
    obtain rfl := Option.some.inj (hu.symm.trans hu')
    dsimp only
    rw [dif_pos ⟨hfits, hkey, horder⟩]
    exact ⟨_, rfl⟩

/-- The lines are inserted one after the other: each has to fit, and none may have the key of another. -/
theorem insertLines_iff {orderId u : OrderId} (lines : List OrderLine) (hu : pg.uuid orderId = some u)
    (horder : u ∈ t.orders.map OrderRow.id) :
    (∃ t', lines.foldlM (insertLine orderId) t = some t') ↔
      (∀ line ∈ lines, (line.row u).fits pg = true) ∧
        ((t.order_lines ++ lines.map (OrderLine.row u)).map OrderLineRow.key).Nodup := by
  induction lines generalizing t with
  | nil => exact ⟨fun _ => ⟨by simp, by simpa using t.order_lines_key⟩, fun _ => ⟨t, rfl⟩⟩
  | cons line lines ih =>
    rw [List.foldlM_cons]
    have hsplit : t.order_lines ++ (line :: lines).map (OrderLine.row u) =
        t.order_lines ++ [line.row u] ++ lines.map (OrderLine.row u) := by simp
    constructor
    · rintro ⟨t', ht'⟩
      obtain ⟨t₁, hline, hrest⟩ := Option.bind_eq_some_iff.mp ht'
      obtain ⟨u', hu', hfits, -, hlines, horders, -⟩ := insertLine_spec hline
      obtain rfl := Option.some.inj (hu.symm.trans hu')
      obtain ⟨hall, hnodup⟩ := (ih (by rwa [horders])).mp ⟨t', hrest⟩
      rw [hlines, ← hsplit] at hnodup
      exact ⟨List.forall_mem_cons.mpr ⟨hfits, hall⟩, hnodup⟩
    · rintro ⟨hall, hnodup⟩
      obtain ⟨hfits, hrest⟩ := List.forall_mem_cons.mp hall
      have hkey : (line.row u).key ∉ t.order_lines.map OrderLineRow.key := by
        rw [hsplit, List.map_append, List.map_append, List.nodup_append] at hnodup
        intro hmem
        exact (List.nodup_append.mp hnodup.1).2.2 _ hmem _ (List.mem_singleton.mpr rfl) rfl
      obtain ⟨t₁, ht₁⟩ := insertLine_isSome hu hfits hkey horder
      obtain ⟨u', hu', -, -, hlines, horders, -⟩ := insertLine_spec ht₁
      obtain rfl := Option.some.inj (hu.symm.trans hu')
      rw [hsplit, ← hlines] at hnodup
      obtain ⟨t', ht'⟩ := (ih (by rwa [horders])).mpr ⟨hrest, hnodup⟩
      exact ⟨t', by rw [ht₁]; exact ht'⟩

theorem insertLines_spec {orderId u : OrderId} {lines : List OrderLine} (hu : pg.uuid orderId = some u)
    (h : lines.foldlM (insertLine orderId) t = some t') :
    t'.order_lines = t.order_lines ++ lines.map (OrderLine.row u) ∧ t'.orders = t.orders ∧
      t'.order_events = t.order_events := by
  induction lines generalizing t with
  | nil =>
    obtain rfl := Option.some.inj h
    simp
  | cons line lines ih =>
    rw [List.foldlM_cons] at h
    obtain ⟨t₁, hline, hrest⟩ := Option.bind_eq_some_iff.mp h
    obtain ⟨u', hu', -, -, hlines, horders, hevents⟩ := insertLine_spec hline
    obtain rfl := Option.some.inj (hu.symm.trans hu')
    obtain ⟨hlines', horders', hevents'⟩ := ih hrest
    exact ⟨by rw [hlines', hlines]; simp, horders'.trans horders, hevents'.trans hevents⟩

theorem create_spec (h : t.create order = some t') :
    ∃ b, pg.uuidOrNull order.businessId = some b ∧ ∃ u, pg.uuid order.id = some u ∧
      u ∉ t.orders.map OrderRow.id ∧ t'.orders = t.orders ++ [order.row u b] ∧
      t'.order_lines = t.order_lines ++ order.lines.map (OrderLine.row u) ∧
      t'.order_events = t.order_events := by
  obtain ⟨t₁, horder, hlines⟩ := Option.bind_eq_some_iff.mp h
  obtain ⟨b, hb, u, hu, -, hfresh, horders₁, hlines₁, hevents₁⟩ := insertOrder_spec horder
  obtain ⟨hlines₂, horders₂, hevents₂⟩ := insertLines_spec hu hlines
  refine ⟨b, hb, u, hu, hfresh, horders₂.trans horders₁, ?_, hevents₂.trans hevents₁⟩
  rw [hlines₂, hlines₁]

theorem updateStatus_spec {status : OrderStatus} {event : OrderEvent}
    (h : t.updateStatus id status event = some t') :
    ∃ u, pg.uuid id = some u ∧ u ∈ t.orders.map OrderRow.id ∧ event.detail.storable = true ∧
      t'.orders = t.orders.map (OrderRow.update u status) ∧ t'.order_lines = t.order_lines ∧
      t'.order_events =
        t.order_events ++ [⟨t.sequence, u, event.type, event.detail, event.at⟩] := by
  obtain ⟨u, hu, hrest⟩ := Option.bind_eq_some_iff.mp h
  split at hrest
  · rename_i hmem
    unfold insertEvent at hrest
    split at hrest
    · rename_i hok
      obtain rfl := Option.some.inj hrest
      exact ⟨u, hu, hmem, hok.1, rfl, rfl, rfl⟩
    · cases hrest
  · cases hrest

/-! ## Queries -/

theorem getD_groupBy {ρ α : Type} (key : ρ → OrderId) (item : ρ → α) (rows : List ρ) (id : OrderId) :
    ((groupBy key item rows).get id).getD [] = (rows.filter fun r => key r = id).map item := by
  have hloop : ∀ (rows : List ρ) (byOrder : InsertionMap OrderId (List α)),
      ((rows.foldl (fun byOrder row =>
        byOrder.set (key row) ((byOrder.get (key row)).getD [] ++ [item row])) byOrder).get id).getD [] =
        (byOrder.get id).getD [] ++ (rows.filter fun r => key r = id).map item := by
    intro rows
    induction rows with
    | nil => simp
    | cons row rows ih =>
      intro byOrder
      rw [List.foldl_cons, ih, InsertionMap.get_set]
      by_cases hkey : key row = id
      · rw [if_pos hkey.symm, List.filter_cons_of_pos (by simpa using hkey), hkey]
        simp
      · rw [if_neg (Ne.symm hkey), List.filter_cons_of_neg (by simpa using hkey)]
  exact hloop rows .empty

theorem mem_mapM_uuid {ids us : List OrderId} (h : ids.mapM pg.uuid = some us) (hid : id ∈ ids)
    {u : OrderId} (hu : pg.uuid id = some u) : u ∈ us := by
  induction ids generalizing us with
  | nil => cases hid
  | cons id' ids ih =>
    rw [List.mapM_cons] at h
    obtain ⟨u', hu', hrest⟩ := Option.bind_eq_some_iff.mp h
    obtain ⟨us', hus', hcons⟩ := Option.bind_eq_some_iff.mp hrest
    obtain rfl := Option.some.inj hcons
    rcases List.mem_cons.mp hid with rfl | hmem
    · obtain rfl := Option.some.inj (hu.symm.trans hu')
      exact List.mem_cons_self
    · exact List.mem_cons_of_mem _ (ih hus' hmem)

instance : Std.Total OrderEventRow.Before where
  total e e' := by
    unfold OrderEventRow.Before
    omega

instance : IsTrans OrderEventRow OrderEventRow.Before where
  trans e e' e'' h h' := by
    unfold OrderEventRow.Before at h h' ⊢
    omega

theorem event_ext {e e' : OrderEventRow} (he : e ∈ t.order_events) (he' : e' ∈ t.order_events)
    (hid : e.id = e'.id) : e = e' := by
  have hnodup : (t.order_events.map OrderEventRow.id).Nodup :=
    List.pairwise_map.mpr (t.order_events_key.imp fun hlt => Nat.ne_of_lt hlt)
  exact List.inj_on_of_nodup_map hnodup he he' hid

theorem before_antisymm {e e' : OrderEventRow} (he : e ∈ t.order_events) (he' : e' ∈ t.order_events)
    (h : e.Before e') (h' : e'.Before e) : e = e' := by
  unfold OrderEventRow.Before at h h'
  exact event_ext he he' (by omega)

/-- The events of one order, sorted among those of others or on their own. -/
theorem filter_sorted {us : List OrderId} (hid : id ∈ us) :
    ((t.order_events.filter fun e => e.order_id ∈ us).insertionSort OrderEventRow.Before).filter
        (fun e => e.order_id = id) =
      (t.order_events.filter fun e => e.order_id = id).insertionSort OrderEventRow.Before := by
  have hsame : (t.order_events.filter fun e => e.order_id ∈ us).filter (fun e => e.order_id = id) =
      t.order_events.filter fun e => e.order_id = id := by
    rw [List.filter_filter]
    refine List.filter_congr fun e _ => ?_
    by_cases he : e.order_id = id
    · simp [he, hid]
    · simp [he]
  have hperm := (List.perm_insertionSort OrderEventRow.Before
    (t.order_events.filter fun e => e.order_id ∈ us)).filter fun e => e.order_id = id
  rw [hsame] at hperm
  refine List.Perm.eq_of_pairwise (fun e e' he he' => ?_)
    ((List.pairwise_insertionSort _ _).filter _) (List.pairwise_insertionSort _ _)
    (hperm.trans (List.perm_insertionSort _ _).symm)
  have hmem := List.mem_of_mem_filter (hperm.mem_iff.mp he)
  have hmem' := List.mem_of_mem_filter ((List.mem_insertionSort _).mp he')
  exact before_antisymm hmem hmem'

/-- The history that a batch finds for an order: the events of the order, and nothing else. -/
theorem eventsFor_getD {ids : List OrderId} {history : InsertionMap OrderId (List OrderEvent)}
    (h : t.eventsFor ids = some history) (hid : id ∈ ids) (hu : pg.uuid id = some id) :
    (history.get id).getD [] =
      ((t.order_events.filter fun e => e.order_id = id).insertionSort OrderEventRow.Before).map
        fun e => ⟨e.type, e.at, e.detail⟩ := by
  obtain ⟨us, hus, rfl⟩ := Option.map_eq_some_iff.mp h
  have hmem := mem_mapM_uuid hus hid hu
  rw [getD_groupBy]
  rw [filter_sorted hmem]

/-- The lines that a batch for the orders `us` finds under an id. -/
def linesOf (t : Tables pg) (ro : RowOrder) (us : List OrderId) (id : OrderId) : List OrderLine :=
  ((ro.lines (t.order_lines.filter fun r => r.order_id ∈ us)).filter fun r => r.order_id = id).map
    fun r => ⟨r.sku, r.qty, r.warehouse_id⟩

/-- The history that it finds. -/
def historyOf (t : Tables pg) (us : List OrderId) (id : OrderId) : List OrderEvent :=
  (((t.order_events.filter fun e => e.order_id ∈ us).insertionSort OrderEventRow.Before).filter
    fun e => e.order_id = id).map fun e => ⟨e.type, e.at, e.detail⟩

/-- What a read returns when nothing comes between its queries. -/
theorem fetch_start {found : List (OrderRow × OrderId)} {us : List OrderId}
    (hus : (found.map Prod.snd).mapM pg.uuid = some us) (ro : RowOrder) :
    t.fetch ro (.start found) = some (found.map fun f =>
      f.1.toOrder (t.linesOf ro us f.2) (t.historyOf us f.2)) := by
  cases found with
  | nil => rfl
  | cons f found =>
    have hlines : t.linesFor ro ((f :: found).map Prod.snd) = some _ :=
      congrArg (Option.map _) hus
    have hhistory : t.eventsFor ((f :: found).map Prod.snd) = some _ :=
      congrArg (Option.map _) hus
    show (t.linesFor ro ((f :: found).map Prod.snd) >>= fun lines =>
      t.eventsFor ((f :: found).map Prod.snd) >>= fun history =>
        Reading.returned ⟨f :: found, some lines, some history⟩) = _
    rw [hlines, hhistory]
    show some _ = some _
    simp only [getD_groupBy]
    rfl

theorem get_eq (ro : RowOrder) (scope : Scope) {u : OrderId} (hu : pg.uuid id = some u) :
    t.get ro id scope = (inScope pg scope).map fun visible =>
      (t.orders.filter fun r => r.id = u && visible r).head?.map fun r =>
        r.toOrder (t.linesOf ro [u] id) (t.historyOf [u] id) := by
  unfold get orderFor
  rw [hu]
  cases inScope pg scope with
  | none => rfl
  | some visible =>
    show (t.fetch ro (.get id _) >>= fun orders => some orders.head?) =
      some ((t.orders.filter fun r => r.id = u && visible r).head?.map _)
    cases (t.orders.filter fun r => r.id = u && visible r).head? with
    | none => rfl
    | some row =>
      have hus : ([(row, id)].map Prod.snd).mapM pg.uuid = some [u] := by simp [hu]
      rw [Reading.get, Option.toList_some, List.map_singleton, fetch_start hus]
      rfl

theorem mapM_uuid {ids : List OrderId} (h : ∀ id ∈ ids, pg.uuid id = some id) :
    ids.mapM pg.uuid = some ids := by
  induction ids with
  | nil => rfl
  | cons id ids ih =>
    obtain ⟨hid, hids⟩ := List.forall_mem_cons.mp h
    rw [List.mapM_cons, hid, ih hids]
    rfl

theorem mem_byCreation {ro : RowOrder} {rows : List OrderRow} {row : OrderRow} :
    row ∈ byCreation ro rows ↔ row ∈ rows := by
  rw [byCreation, List.mem_insertionSort, (ro.orders_perm rows).mem_iff]

theorem all_eq (ro : RowOrder) (scope : Scope) :
    t.all ro scope = (inScope pg scope).map fun visible =>
      (byCreation ro (t.orders.filter visible)).map fun r =>
        r.toOrder
          (t.linesOf ro ((byCreation ro (t.orders.filter visible)).map OrderRow.id) r.id)
          (t.historyOf ((byCreation ro (t.orders.filter visible)).map OrderRow.id) r.id) := by
  unfold all ordersIn
  cases inScope pg scope with
  | none => rfl
  | some visible =>
    show t.fetch ro (.hydrateAll _) = some _
    have hus : (((byCreation ro (t.orders.filter visible)).map fun r => (r, r.id)).map Prod.snd).mapM
        pg.uuid = some ((byCreation ro (t.orders.filter visible)).map OrderRow.id) := by
      rw [List.map_map]
      refine mapM_uuid fun id hid => ?_
      obtain ⟨row, hrow, rfl⟩ := List.mem_map.mp hid
      exact t.orders_uuid row (List.mem_of_mem_filter (mem_byCreation.mp hrow))
    rw [Reading.hydrateAll, fetch_start hus, List.map_map]
    rfl

end Tables

end SupplyChain
