import SupplyChain.Orders.Proofs.PgOrderStoreProofs
import SupplyChain.Orders.Proofs.PgTransactionsProofs

/-!
# Proofs: a transaction alone

The statements of a call that nothing comes between do to the tables what `PgOrderStore` does in one step.
-/

namespace SupplyChain

open Collections

namespace Tables

variable {pg : Postgres} {t t' : Tables pg}

theorem insertOrder_sequence {order : Order} (h : t.insertOrder order = some t') :
    t'.sequence = t.sequence := by
  unfold insertOrder at h
  split at h
  · dsimp only at h
    split at h
    · obtain rfl := Option.some.inj h
      rfl
    · cases h
  · cases h

theorem insertLine_sequence {orderId : OrderId} {line : OrderLine} (h : t.insertLine orderId line = some t') :
    t'.sequence = t.sequence := by
  unfold insertLine at h
  split at h
  · cases h
  · dsimp only at h
    split at h
    · obtain rfl := Option.some.inj h
      rfl
    · cases h

end Tables

namespace PgServer

variable {pg : Postgres} {s s' : PgServer} {id : OrderId} {client : Nat} {t t' : Tables pg}
  {order : Order} {row : OrderRow} {lines : List OrderLineRow} {rest : List OrderLine}

theorem Rests.unique (h : s.Rests t) (h' : s.Rests t') : t = t' := by
  obtain ⟨horders, hlines, hevents, hseq, -, -⟩ := h
  obtain ⟨horders', hlines', hevents', hseq', -, -⟩ := h'
  cases t
  cases t'
  simp only [Tables.mk.injEq]
  exact ⟨horders.symm.trans horders', hlines.symm.trans hlines', hevents.symm.trans hevents',
    hseq.symm.trans hseq'⟩

/-- Whatever state a call leaves, it is at rest with one tables at most. -/
theorem rests_some_iff (h : s'.Rests t) : (∃ s₁, some s' = some s₁ ∧ s₁.Rests t') ↔ some t = some t' := by
  constructor
  · rintro ⟨_, ⟨⟩, h'⟩
    rw [h.unique h']
  · rintro ⟨⟩
    exact ⟨s', rfl, h⟩

theorem rests_none_iff : (∃ s₁ : PgServer, none = some s₁ ∧ s₁.Rests t') ↔ none = some t' := by
  constructor
  · rintro ⟨_, ⟨⟩, -⟩
  · rintro ⟨⟩

theorem goOn_goOn (t t' : Transaction) : (s.goOn client t).goOn client t' = s.goOn client t' := by
  unfold goOn
  rw [Function.update_idem]

theorem clients_goOn (t : Transaction) : (s.goOn client t).clients client = some t :=
  Function.update_self ..

/-- The end of a transaction that was the only one. -/
theorem release_alone (h : s.Rests t) (order_id : OrderId) (at' : Transaction) :
    ((s.lock client order_id).goOn client at').release client = s := by
  have hclients : Function.update (Function.update s.clients client (some at')) client none = s.clients := by
    rw [Function.update_idem, h.idle, Function.update_eq_self_iff]
  have hlocks : (s.locks.acquire order_id client).release client = s.locks := by
    funext k
    rw [h.free, Locks.release, Locks.acquire]
    by_cases hk : k = order_id
    · subst hk
      simp [Locks.empty]
    · simp [hk, Locks.empty]
  exact congrArg₂ (fun clients locks => { s with clients, locks }) hclients hlocks

theorem run_cons (a : PgStep) (steps : List PgStep) :
    s.run pg (a :: steps) = (s.step pg a).bind fun s' => s'.run pg steps := rfl

theorem call_alone (h : s.Rests t) (op : StoreOp) (steps : List PgStep) :
    s.run pg (.call client op :: steps) = (s.goOn client (.begun op)).run pg steps := by
  have hidle : s.clients client = none := by rw [h.idle]
  rw [run_cons, step, hidle]
  rfl

theorem statement_alone (at' : Transaction) (skipped : Nat) (steps : List PgStep) :
    (s.goOn client at').run pg (.statement client skipped :: steps) =
      ((s.goOn client at').statement pg client skipped at').bind fun s' => s'.run pg steps := by
  rw [run_cons, step, clients_goOn]
  rfl

theorem commit_alone (at' : Transaction) :
    (s.goOn client at').run pg [.commit client] = (s.goOn client at').commit client at' := by
  rw [run_cons, step, clients_goOn, Option.bind_some]
  exact Option.bind_fun_some _

theorem statement_line (line : OrderLine) (skipped : Nat) :
    s.statement pg client skipped (.inserting order row lines (line :: rest)) =
      if (line.row row.id).fits pg ∧ ∀ l ∈ s.order_lines ++ lines, l.key ≠ (line.row row.id).key then
        some (s.goOn client (.inserting order row (lines ++ [line.row row.id]) rest))
      else none := rfl

/-- The lines of an order, inserted one by one, and the commit. -/
theorem lines_alone (h : s.Rests t) (huuid : pg.uuid order.id = some row.id) {t₁ : Tables pg}
    (horders : t₁.orders = t.orders ++ [row]) (hlines : t₁.order_lines = t.order_lines ++ lines)
    (hevents : t₁.order_events = t.order_events) (hseq : t₁.sequence = t.sequence) :
    (∃ s', ((s.lock client row.id).goOn client (.inserting order row lines rest)).run pg
        (rest.map (fun _ => .statement client 0) ++ [.commit client]) = some s' ∧ s'.Rests t') ↔
      rest.foldlM (Tables.insertLine order.id) t₁ = some t' := by
  induction rest generalizing lines t₁ with
  | nil =>
    rw [List.map_nil, List.nil_append, commit_alone, List.foldlM_nil]
    refine rests_some_iff ⟨?_, ?_, ?_, ?_, ?_, ?_⟩
    · rw [horders, ← h.orders]
      rfl
    · rw [hlines, ← h.order_lines]
      rfl
    · rw [hevents, ← h.order_events]
      rfl
    · rw [hseq, ← h.sequence]
      rfl
    · exact (congrArg clients (release_alone h row.id _)).trans h.idle
    · exact (congrArg locks (release_alone h row.id _)).trans h.free
  | cons line rest ih =>
    rw [List.map_cons, List.cons_append, statement_alone, List.foldlM_cons]
    have hmem : row.id ∈ t₁.orders.map OrderRow.id := by
      rw [horders, List.map_append]
      exact List.mem_append_right _ List.mem_cons_self
    have hkeys : (∀ l ∈ s.order_lines ++ lines, l.key ≠ (line.row row.id).key) ↔
        (line.row row.id).key ∉ t₁.order_lines.map OrderLineRow.key := by
      rw [hlines, ← h.order_lines, List.mem_map, not_exists]
      exact forall_congr' fun l => not_and.symm
    by_cases hfits : (line.row row.id).fits pg ∧ (line.row row.id).key ∉ t₁.order_lines.map OrderLineRow.key
    · obtain ⟨t₂, hinsert⟩ := Tables.insertLine_isSome huuid hfits.1 hfits.2 hmem
      obtain ⟨u, hu, -, -, hlines₂, horders₂, hevents₂⟩ := Tables.insertLine_spec hinsert
      obtain rfl := Option.some.inj (huuid.symm.trans hu)
      rw [statement_line, if_pos ⟨hfits.1, hkeys.mpr hfits.2⟩, Option.bind_some, goOn_goOn, hinsert]
      exact ih (horders₂.trans horders) (by rw [hlines₂, hlines, List.append_assoc])
        (hevents₂.trans hevents) ((Tables.insertLine_sequence hinsert).trans hseq)
    · have hinsert : t₁.insertLine order.id line = none := by
        refine Option.eq_none_iff_forall_ne_some.mpr fun t₂ hinsert => ?_
        obtain ⟨u, hu, hline, hkey, -⟩ := Tables.insertLine_spec hinsert
        obtain rfl := Option.some.inj (huuid.symm.trans hu)
        exact hfits ⟨hline, hkey⟩
      rw [statement_line, if_neg fun hgood => hfits ⟨hgood.1, hkeys.mp hgood.2⟩, hinsert]
      exact rests_none_iff

theorem insertedRow_iff : order.insertedRow pg = some row ↔
    ∃ u b, pg.uuid order.id = some u ∧ pg.uuidOrNull order.businessId = some b ∧ order.row u b = row := by
  unfold Order.insertedRow
  simp only [Option.bind_eq_bind, Option.pure_def, Option.bind_eq_some_iff, Option.some_inj]
  constructor
  · rintro ⟨u, hu, b, hb, hrow⟩
    exact ⟨u, b, hu, hb, hrow⟩
  · rintro ⟨u, b, hu, hb, hrow⟩
    exact ⟨u, hu, b, hb, hrow⟩

/-- What `insertOrder` does to the tables, as `insertedRow` has it. -/
theorem insertOrder_iff : (∃ t₁, t.insertOrder order = some t₁) ↔
    ∃ row, order.insertedRow pg = some row ∧ row.fits = true ∧ row.id ∉ t.orders.map OrderRow.id := by
  constructor
  · rintro ⟨t₁, hinsert⟩
    obtain ⟨b, hb, u, hu, hfits, hfresh, -⟩ := Tables.insertOrder_spec hinsert
    exact ⟨order.row u b, insertedRow_iff.mpr ⟨u, b, hu, hb, rfl⟩, hfits, hfresh⟩
  · rintro ⟨row, hrow, hfits, hfresh⟩
    obtain ⟨u, b, hu, hb, rfl⟩ := insertedRow_iff.mp hrow
    exact Tables.insertOrder_isSome hb hu hfits hfresh

theorem lock_goOn (order_id : OrderId) (t₁ t₂ : Transaction) :
    ((s.goOn client t₁).lock client order_id).goOn client t₂ = (s.lock client order_id).goOn client t₂ := by
  show ((s.lock client order_id).goOn client t₁).goOn client t₂ = _
  rw [goOn_goOn]

theorem statement_create (h : s.Rests t) (at' : Transaction) :
    (s.goOn client at').statement pg client 0 (.begun (.create order)) =
      (order.insertedRow pg).bind fun row =>
        if row.fits ∧ row.id ∉ t.orders.map OrderRow.id then
          some ((s.lock client row.id).goOn client (.inserting order row [] order.lines))
        else none := by
  refine congrArg (Option.bind _) (funext fun row => ?_)
  have hfree : s.locks row.id = none := by rw [h.free]; rfl
  show (if row.fits ∧ row.id ∉ s.orders.map OrderRow.id ∧ s.locks row.id = none then _ else _) = _
  rw [hfree, h.orders, lock_goOn]
  simp only [and_true]
  rfl

theorem statement_updateStatus (h : s.Rests t) {status : OrderStatus} {event : OrderEvent}
    (at' : Transaction) :
    (s.goOn client at').statement pg client 0 (.begun (.updateStatus id status event)) =
      (pg.uuid id).bind fun order_id =>
        if order_id ∈ t.orders.map OrderRow.id then
          some ((s.lock client order_id).goOn client (.updated order_id id status event))
        else none := by
  refine congrArg (Option.bind _) (funext fun order_id => ?_)
  have hfree : s.locks order_id = none := by rw [h.free]; rfl
  show (if order_id ∈ s.orders.map OrderRow.id ∧ s.locks order_id = none then _ else _) = _
  rw [hfree, h.orders, lock_goOn]
  simp only [and_true]
  rfl

/-- A `create` that nothing comes between is one step on the tables. -/
theorem create_alone (h : s.Rests t) :
    (∃ s', s.run pg (alone client (.create order)) = some s' ∧ s'.Rests t') ↔ t.create order = some t' := by
  show (∃ s', s.run pg (.call client (.create order) :: .statement client 0 ::
    (order.lines.map (fun _ => .statement client 0) ++ [.commit client])) = some s' ∧ s'.Rests t') ↔ _
  rw [call_alone h, statement_alone, statement_create h, Tables.create]
  by_cases hinsert : ∃ t₁, t.insertOrder order = some t₁
  · obtain ⟨row, hrow, hfits⟩ := insertOrder_iff.mp hinsert
    obtain ⟨t₁, ht₁⟩ := hinsert
    obtain ⟨b, hb, u, hu, -, -, horders, hlines, hevents⟩ := Tables.insertOrder_spec ht₁
    obtain rfl := Option.some.inj ((insertedRow_iff.mpr ⟨u, b, hu, hb, rfl⟩).symm.trans hrow)
    rw [hrow, Option.bind_some, if_pos hfits, Option.bind_some, ht₁, Option.bind_some]
    exact lines_alone h hu horders (by rw [hlines, List.append_nil]) hevents (Tables.insertOrder_sequence ht₁)
  · have hstatement : (order.insertedRow pg).bind (fun row =>
        if row.fits ∧ row.id ∉ t.orders.map OrderRow.id then
          some ((s.lock client row.id).goOn client (.inserting order row [] order.lines))
        else none) = none := by
      refine Option.bind_eq_none_iff.mpr fun row hrow => if_neg fun hgood => ?_
      exact hinsert (insertOrder_iff.mpr ⟨row, hrow, hgood⟩)
    have hnone : t.insertOrder order = none :=
      Option.eq_none_iff_forall_ne_some.mpr fun t₁ ht₁ => hinsert ⟨t₁, ht₁⟩
    rw [hstatement, hnone]
    exact rests_none_iff

/-- So is an `updateStatus`. -/
theorem updateStatus_alone (h : s.Rests t) {status : OrderStatus} {event : OrderEvent} :
    (∃ s', s.run pg (alone client (.updateStatus id status event)) = some s' ∧ s'.Rests t') ↔
      t.updateStatus id status event = some t' := by
  rw [alone, call_alone h, statement_alone, statement_updateStatus h, Tables.updateStatus]
  cases huuid : pg.uuid id with
  | none => exact rests_none_iff
  | some order_id =>
    rw [Option.bind_some, Option.bind_some]
    split
    · rename_i hmem
      have hmem' : order_id ∈ (t.updateOrders order_id status).orders.map OrderRow.id := by
        show order_id ∈ (t.orders.map (OrderRow.update order_id status)).map OrderRow.id
        rw [List.map_map, List.map_congr_left fun row _ => row.update_id order_id status]
        exact hmem
      rw [Option.bind_some, statement_alone]
      by_cases hstorable : event.detail.storable = true
      · have hinsert : ∀ s₁ : PgServer, s₁.statement pg client 0 (.updated order_id id status event) =
            some ({ s₁ with sequence := s₁.sequence + 1 }.goOn client
              (.recorded order_id ⟨id, status, event, s₁.sequence⟩)) := fun s₁ => if_pos hstorable
        rw [hinsert, Option.bind_some, commit_alone, Tables.insertEvent, dif_pos ⟨hstorable, hmem'⟩]
        refine rests_some_iff ⟨?_, h.order_lines, ?_, ?_, ?_, ?_⟩
        · exact congrArg (List.map (OrderRow.update order_id status)) h.orders
        · show s.order_events ++ [StatusUpdate.row order_id ⟨id, status, event, s.sequence⟩] = _
          rw [h.order_events, h.sequence]
          rfl
        · exact congrArg (· + 1) h.sequence
        · show Function.update (Function.update (Function.update s.clients client _) client _) client none = _
          rw [Function.update_idem, Function.update_idem, h.idle, Function.update_eq_self_iff]
        · exact (congrArg locks (release_alone h order_id (.updated order_id id status event))).trans h.free
      · have hinsert : ∀ s₁ : PgServer, s₁.statement pg client 0 (.updated order_id id status event) = none :=
          fun s₁ => if_neg hstorable
        rw [hinsert, Tables.insertEvent, dif_neg fun hgood => hstorable hgood.1]
        exact rests_none_iff
    · exact rests_none_iff

end PgServer

end SupplyChain
