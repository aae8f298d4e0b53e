import SupplyChain.Orders.Proofs.PgAloneProofs
import SupplyChain.Orders.Proofs.TenantsProofs
import SupplyChain.Orders.SerialOrder

/-!
# Proofs: the transactions of `PgOrderStore` are serializable

What a transaction has found to be allowed is still allowed when it commits, since nobody else writes to its
order meanwhile. So the call that commits next also succeeds on the tables that the calls before it have left,
and does the same to them; only the ids of the events may be others.
-/

namespace SupplyChain

namespace Tables

variable {pg : Postgres} {t t' : Tables pg} {id : OrderId}

/-! ## Reads -/

theorem nonTerminal_eq (ro : RowOrder) :
    t.nonTerminal ro = some ((t.openOrders ro).map fun r =>
      r.toOrder (t.linesOf ro ((t.openOrders ro).map OrderRow.id) r.id)
        (t.historyOf ((t.openOrders ro).map OrderRow.id) r.id)) := by
  have hus : (((t.openOrders ro).map fun r => (r, r.id)).map Prod.snd).mapM pg.uuid =
      some ((t.openOrders ro).map OrderRow.id) := by
    rw [List.map_map]
    refine mapM_uuid fun id hid => ?_
    obtain ⟨row, hrow, rfl⟩ := List.mem_map.mp hid
    exact t.orders_uuid row (List.mem_of_mem_filter (mem_byCreation.mp hrow))
  rw [nonTerminal, Reading.hydrateAll, fetch_start hus, List.map_map]
  rfl

/-- Tables with the same rows read the same if they have recorded the same events for each order. -/
theorem ReadAlike.of_recorded (horders : t.orders = t'.orders) (hlines : t.order_lines = t'.order_lines)
    (hrecorded : ∀ id, t.recorded id = t'.recorded id) : t.ReadAlike t' := by
  have hlinesOf : ∀ ro us id, t.linesOf ro us id = t'.linesOf ro us id := by
    intro ro us id
    rw [linesOf, hlines]
    rfl
  have hhistory : ∀ us id, t.historyOf us id = t'.historyOf us id := by
    intro us id
    by_cases hid : id ∈ us
    · rw [historyOf_eq hid, historyOf_eq hid, hrecorded]
    · rw [historyOf_of_not_mem hid, historyOf_of_not_mem hid]
  constructor
  · intro ro id scope
    cases hu : pg.uuid id with
    | none => rw [get_of_uuid_none ro scope hu, get_of_uuid_none ro scope hu]
    | some u => simp only [get_eq ro scope hu, horders, hlinesOf, hhistory]
  · intro ro scope
    simp only [all_eq, horders, hlinesOf, hhistory]
  · intro ro
    simp only [nonTerminal_eq, openOrders, horders, hlinesOf, hhistory]

theorem ReadAlike.showsAs {t t' : Tables pg} (h : t.ReadAlike t') {store : OrderStore}
    (hagree : StoreOp.Agree store t') : t.ShowsAs store := by
  intro b hb ro
  obtain ⟨hget, hall⟩ := hagree.shown hb ro
  refine ⟨fun id hid => ?_, ?_⟩
  · rw [h.get]
    exact hget id hid
  · rw [h.all]
    exact hall

/-! ## Executing one more call -/

theorem replay_append {calls : List Success} (h : t.replay calls = some t') (call : Success) :
    t.replay (calls ++ [call]) = t'.execute call := by
  rw [replay] at h
  rw [replay, List.foldlM_append, h]
  exact Option.bind_fun_some _

/-- A `create` succeeds if the order is new, and its rows fit and have keys of their own. -/
theorem create_isSome {order : Order} {row : OrderRow} (hrow : order.insertedRow pg = some row)
    (hfits : row.fits = true) (hfresh : row.id ∉ t.orders.map OrderRow.id)
    (hlines : ∀ line ∈ order.lines, (line.row row.id).fits pg = true)
    (hkeys : ((order.lines.map (OrderLine.row row.id)).map OrderLineRow.key).Nodup) :
    ∃ t', t.create order = some t' := by
  obtain ⟨u, b, hu, hb, rfl⟩ := PgServer.insertedRow_iff.mp hrow
  obtain ⟨t₁, ht₁⟩ := insertOrder_isSome hb hu hfits hfresh
  obtain ⟨b', hb', u', hu', -, -, horders, hlines₁, -⟩ := insertOrder_spec ht₁
  obtain rfl := Option.some.inj (hu.symm.trans hu')
  have hmem : u ∈ t₁.orders.map OrderRow.id := by
    rw [horders, List.map_append]
    exact List.mem_append_right _ List.mem_cons_self
  obtain ⟨t₂, ht₂⟩ := (insertLines_iff order.lines hu hmem).mpr ⟨hlines, by
    rw [List.map_append, List.nodup_append]
    refine ⟨t₁.order_lines_key, hkeys, fun k hk k' hk' heq => hfresh ?_⟩
    -- a stored line with the key of a new one would be a line of the order
    obtain ⟨l, hl, rfl⟩ := List.mem_map.mp hk
    obtain ⟨l', hl', rfl⟩ := List.mem_map.mp hk'
    rw [hlines₁] at hl
    have hid : l.order_id = u := (congrArg Prod.fst heq).trans (OrderLine.order_id_of_mem hl')
    exact hid ▸ t.order_lines_order l hl⟩
  exact ⟨t₂, by rw [create, ht₁, Option.bind_some, ht₂]⟩

end Tables

/-! ## Transactions in flight -/

/-- The rows that a transaction has written have been found to fit. -/
def Transaction.Checked (pg : Postgres) : Transaction → Prop
  | .begun _ => True
  | .inserting order row lines _ =>
    order.insertedRow pg = some row ∧ row.fits = true ∧ (∀ l ∈ lines, l.fits pg = true) ∧
      (lines.map OrderLineRow.key).Nodup
  | .updated .. => True
  | .recorded _ update => update.event.detail.storable = true

/-- The id that it has drawn for its event. -/
def Transaction.drawn : Transaction → Option Nat
  | .recorded _ update => some update.eventId
  | _ => none

/-- An event without its id. -/
def OrderEventRow.unnumbered (e : OrderEventRow) : OrderId × OrderEvent := (e.order_id, ⟨e.type, e.at, e.detail⟩)

namespace PgServer

variable {pg : Postgres} {s s' : PgServer} {client : Nat} {t : Transaction}

/-- The id that a client has drawn. -/
def drawnBy (s : PgServer) (client : Nat) : Option Nat := (s.clients client).bind Transaction.drawn

/-- The tables hold the same, but for the ids of the events. -/
structure Echoes (s : PgServer) (t : Tables pg) : Prop where
  orders : t.orders = s.orders
  order_lines : t.order_lines = s.order_lines
  order_events : t.order_events.map OrderEventRow.unnumbered = s.order_events.map OrderEventRow.unnumbered

/-- The ids of the events are distinct, also those that are yet to be committed, and the sequence is past
them. -/
structure Numbered (s : PgServer) : Prop where
  nodup : (s.order_events.map OrderEventRow.id).Nodup
  below : ∀ e ∈ s.order_events, e.id < s.sequence
  drawn : ∀ client n, s.drawnBy client = some n → n < s.sequence ∧ ∀ e ∈ s.order_events, e.id ≠ n
  apart : ∀ client client' n, s.drawnBy client = some n → s.drawnBy client' = some n → client = client'

/-- What the run and the replay of its log always satisfy. -/
structure Replayed (pg : Postgres) (s : PgServer) : Prop where
  inv : Inv pg s
  checked : ∀ client t, s.clients client = some t → t.Checked pg
  numbered : s.Numbered
  serial : ∃ t : Tables pg, Tables.empty.replay s.log = some t ∧ s.Echoes t

theorem replayed_empty (pg : Postgres) : Replayed pg empty where
  inv := inv_empty pg
  checked := by
    intro client t ht
    cases ht
  numbered := by
    refine ⟨List.nodup_nil, List.forall_mem_nil _, ?_, ?_⟩
    · intro client n hn
      cases hn
    · intro client client' n hn
      cases hn
  serial := ⟨.empty, rfl, rfl, rfl, rfl⟩

/-! ## Steps -/

/-- A step of a client that writes nothing for others to see. -/
structure Quiet (pg : Postgres) (s : PgServer) (client : Nat) (at' : Option Transaction) (s' : PgServer) :
    Prop where
  clients : s'.clients = Function.update s.clients client at'
  orders : s'.orders = s.orders
  order_lines : s'.order_lines = s.order_lines
  order_events : s'.order_events = s.order_events
  log : s'.log = s.log
  sequence : s.sequence ≤ s'.sequence
  checked : (∀ t, s.clients client = some t → t.Checked pg) → ∀ t', at' = some t' → t'.Checked pg
  /-- An id that it draws is past the sequence. -/
  drawn : ∀ n, at'.bind Transaction.drawn = some n →
    s.drawnBy client = some n ∨ s.sequence ≤ n ∧ n < s'.sequence

theorem quiet_goOn {at' : Transaction} (hdrawn : at'.drawn = none)
    (hchecked : (∀ t, s.clients client = some t → t.Checked pg) → at'.Checked pg) :
    Quiet pg s client (some at') (s.goOn client at') := by
  refine ⟨rfl, rfl, rfl, rfl, rfl, le_rfl, ?_, ?_⟩
  · rintro hold _ ⟨⟩
    exact hchecked hold
  · intro n hn
    rw [Option.bind_some, hdrawn] at hn
    cases hn

theorem quiet_release : Quiet pg s client none (s.release client) := by
  refine ⟨rfl, rfl, rfl, rfl, rfl, le_rfl, ?_, ?_⟩
  · intro _ t' ht'
    cases ht'
  · intro n hn
    cases hn

theorem quiet_lock {order_id : OrderId} {at' : Transaction} (hdrawn : at'.drawn = none)
    (hchecked : at'.Checked pg) : Quiet pg s client (some at') ((s.lock client order_id).goOn client at') := by
  refine ⟨rfl, rfl, rfl, rfl, rfl, le_rfl, ?_, ?_⟩
  · rintro _ _ ⟨⟩
    exact hchecked
  · intro n hn
    rw [Option.bind_some, hdrawn] at hn
    cases hn

theorem statement_quiet {skipped : Nat} (ht : s.clients client = some t)
    (hs : s.statement pg client skipped t = some s') : ∃ at', Quiet pg s client at' s' := by
  cases t with
  | begun call =>
    cases call with
    | create order =>
      obtain ⟨row, hrow, hs⟩ := Option.bind_eq_some_iff.mp hs
      split at hs
      · rename_i hinsert
        obtain rfl := Option.some.inj hs
        exact ⟨_, quiet_lock rfl ⟨hrow, hinsert.1, List.forall_mem_nil _, List.nodup_nil⟩⟩
      · cases hs
    | updateStatus id status event =>
      obtain ⟨order_id, -, hs⟩ := Option.bind_eq_some_iff.mp hs
      split at hs
      · obtain rfl := Option.some.inj hs
        exact ⟨_, quiet_lock rfl trivial⟩
      · cases hs
  | inserting order row lines rest =>
    cases rest with
    | nil => cases hs
    | cons line rest =>
      simp only [statement] at hs
      split at hs
      · rename_i hinsert
        obtain ⟨hfits, hkey⟩ := hinsert
        obtain rfl := Option.some.inj hs
        refine ⟨_, quiet_goOn rfl fun hold => ?_⟩
        obtain ⟨hrow, hrowFits, hlines, hkeys⟩ := hold _ ht
        refine ⟨hrow, hrowFits, ?_, ?_⟩
        · exact List.forall_mem_append.mpr ⟨hlines, List.forall_mem_singleton.mpr hfits⟩
        · rw [List.map_append, List.map_singleton]
          refine List.nodup_append.mpr ⟨hkeys, List.nodup_singleton _, fun k hk k' hk' => ?_⟩
          obtain ⟨l, hl, rfl⟩ := List.mem_map.mp hk
          rw [List.mem_singleton.mp hk']
          exact hkey l (List.mem_append_right _ hl)
      · cases hs
  | updated order_id id status event =>
    simp only [statement] at hs
    split at hs
    · rename_i hstorable
      obtain rfl := Option.some.inj hs
      have hseq : s.sequence ≤ s.sequence + skipped + 1 := by omega
      refine ⟨_, rfl, rfl, rfl, rfl, rfl, hseq, ?_, ?_⟩
      · rintro _ _ ⟨⟩
        exact hstorable
      · rintro _ ⟨⟩
        exact .inr ⟨Nat.le_add_right _ _, Nat.lt_succ_self _⟩
    · cases hs
  | recorded order_id update => cases hs

/-- A step writes nothing for others to see, or it is a commit. -/
theorem step_cases {a : PgStep} (hs : s.step pg a = some s') :
    (∃ client at', Quiet pg s client at' s') ∨
      ∃ client t, s.clients client = some t ∧ s.commit client t = some s' := by
  cases a with
  | call client call =>
    simp only [PgServer.step] at hs
    split at hs
    · obtain rfl := Option.some.inj hs
      exact .inl ⟨client, _, quiet_goOn rfl fun _ => trivial⟩
    · cases hs
  | statement client skipped =>
    obtain ⟨t, ht, hs⟩ := Option.bind_eq_some_iff.mp hs
    exact .inl ⟨client, statement_quiet ht hs⟩
  | commit client =>
    obtain ⟨t, ht, hs⟩ := Option.bind_eq_some_iff.mp hs
    exact .inr ⟨client, t, ht, hs⟩
  | fail client =>
    obtain ⟨t, -, rfl⟩ := Option.map_eq_some_iff.mp hs
    exact .inl ⟨client, none, quiet_release⟩

theorem drawnBy_update {at' : Option Transaction}
    (hclients : s'.clients = Function.update s.clients client at') :
    s'.drawnBy = Function.update s.drawnBy client (at'.bind Transaction.drawn) := by
  funext client'
  unfold drawnBy
  rw [hclients]
  by_cases hclient : client' = client
  · subst hclient
    rw [Function.update_self, Function.update_self]
  · rw [Function.update_of_ne hclient, Function.update_of_ne hclient]

theorem Numbered.quiet (h : s.Numbered) {at' : Option Transaction} (hq : Quiet pg s client at' s') :
    s'.Numbered where
  nodup := by
    rw [hq.order_events]
    exact h.nodup
  below := by
    intro e he
    rw [hq.order_events] at he
    exact (h.below e he).trans_le hq.sequence
  drawn := by
    intro client' n hn
    rw [drawnBy_update hq.clients] at hn
    rw [hq.order_events]
    have hold : ∀ client', s.drawnBy client' = some n →
        n < s'.sequence ∧ ∀ e ∈ s.order_events, e.id ≠ n := by
      intro client' hn
      obtain ⟨hlt, hne⟩ := h.drawn client' n hn
      exact ⟨hlt.trans_le hq.sequence, hne⟩
    by_cases hclient : client' = client
    · subst hclient
      rw [Function.update_self] at hn
      rcases hq.drawn n hn with hkept | ⟨hnew, hlt⟩
      · exact hold client' hkept
      · refine ⟨hlt, fun e he heq => ?_⟩
        have hbelow := h.below e he
        omega
    · rw [Function.update_of_ne hclient] at hn
      exact hold client' hn
  apart := by
    intro client₁ client₂ n h₁ h₂
    rw [drawnBy_update hq.clients] at h₁ h₂
    -- an id that another client has drawn is below the sequence
    have hkept : ∀ client', s.drawnBy client' = some n → at'.bind Transaction.drawn = some n →
        s.drawnBy client = some n := by
      intro client' hn hat
      rcases hq.drawn n hat with hkept | ⟨hge, -⟩
      · exact hkept
      · have hlt := (h.drawn client' n hn).1
        omega
    by_cases hc₁ : client₁ = client
    · by_cases hc₂ : client₂ = client
      · rw [hc₁, hc₂]
      · subst hc₁
        rw [Function.update_self] at h₁
        rw [Function.update_of_ne hc₂] at h₂
        exact h.apart client₁ client₂ n (hkept client₂ h₂ h₁) h₂
    · rw [Function.update_of_ne hc₁] at h₁
      by_cases hc₂ : client₂ = client
      · subst hc₂
        rw [Function.update_self] at h₂
        exact h.apart client₁ client₂ n h₁ (hkept client₁ h₁ h₂)
      · rw [Function.update_of_ne hc₂] at h₂
        exact h.apart client₁ client₂ n h₁ h₂

/-- The tables and the log stay as they were. -/
theorem Replayed.quiet (h : Replayed pg s) {at' : Option Transaction} (hinv : Inv pg s')
    (hq : Quiet pg s client at' s') : Replayed pg s' where
  inv := hinv
  checked := by
    intro client' t ht
    rw [hq.clients] at ht
    by_cases hclient : client' = client
    · subst hclient
      rw [Function.update_self] at ht
      exact hq.checked (h.checked client') t ht
    · rw [Function.update_of_ne hclient] at ht
      exact h.checked client' t ht
  numbered := h.numbered.quiet hq
  serial := by
    obtain ⟨t, hreplay, hsame⟩ := h.serial
    refine ⟨t, by rw [hq.log]; exact hreplay, ?_, ?_, ?_⟩
    · rw [hq.orders]
      exact hsame.orders
    · rw [hq.order_lines]
      exact hsame.order_lines
    · rw [hq.order_events]
      exact hsame.order_events

theorem drawn_of (ht : s.clients client = some t) : s.drawnBy client = t.drawn := by
  rw [drawnBy, ht]
  rfl

/-! ## Commits -/

theorem mem_orders_of_rowsOf {order_id : OrderId} (h : s.rowsOf order_id ≠ []) :
    order_id ∈ s.orders.map OrderRow.id := by
  by_contra hnot
  exact h (rowsOf_eq_nil.mpr hnot)

/-- The `create` that commits succeeds in the serial order too. -/
theorem Echoes.create {t : Tables pg} (h : s.Echoes t) {order : Order} {row : OrderRow}
    {lines : List OrderLineRow} (hsound : Sound pg s (.inserting order row lines []))
    (hchecked : (Transaction.inserting order row lines []).Checked pg) :
    ∃ t', t.create order = some t' ∧ t'.orders = s.orders ++ [row] ∧
      t'.order_lines = s.order_lines ++ lines ∧ t'.order_events = t.order_events := by
  obtain ⟨huuid, -, hnone, done, hdone, rfl⟩ := hsound
  obtain ⟨hrow, hfits, hlines, hkeys⟩ := hchecked
  rw [List.append_nil] at hdone
  subst hdone
  have hfresh : row.id ∉ t.orders.map OrderRow.id := by
    rw [h.orders]
    exact rowsOf_eq_nil.mp hnone
  have hlines : ∀ line ∈ order.lines, (line.row row.id).fits pg = true := by
    intro line hline
    exact hlines _ (List.mem_map_of_mem hline)
  obtain ⟨t', ht'⟩ := Tables.create_isSome hrow hfits hfresh hlines hkeys
  obtain ⟨b, hb, u, hu, -, horders, hlines', hevents⟩ := Tables.create_spec ht'
  obtain rfl := Option.some.inj (huuid.symm.trans hu)
  have hsame : order.row row.id b = row :=
    Option.some.inj ((insertedRow_iff.mpr ⟨_, b, hu, hb, rfl⟩).symm.trans hrow)
  exact ⟨t', ht', by rw [horders, h.orders, hsame], by rw [hlines', h.order_lines], hevents⟩

/-- And so does the `updateStatus`. -/
theorem Echoes.updateStatus {t : Tables pg} (h : s.Echoes t) {order_id : OrderId} {update : StatusUpdate}
    (hsound : Sound pg s (.recorded order_id update))
    (hchecked : (Transaction.recorded order_id update).Checked pg) :
    ∃ t', t.updateStatus update.id update.status update.event = some t' ∧
      t'.orders = s.orders.map (OrderRow.update order_id update.status) ∧
      t'.order_lines = s.order_lines ∧
      t'.order_events.map OrderEventRow.unnumbered =
        (s.order_events ++ [update.row order_id]).map OrderEventRow.unnumbered := by
  obtain ⟨huuid, hknown, -, -⟩ := hsound
  have hmem : order_id ∈ t.ids := by
    rw [Tables.ids, h.orders]
    exact mem_orders_of_rowsOf hknown
  obtain ⟨t', ht'⟩ :=
    (Tables.updateStatus_iff t update.id update.status update.event).mpr ⟨order_id, huuid, hmem, hchecked⟩
  obtain ⟨u, hu, -, -, horders, hlines, hevents⟩ := Tables.updateStatus_spec ht'
  obtain rfl := Option.some.inj (huuid.symm.trans hu)
  refine ⟨t', ht', by rw [horders, h.orders], hlines.trans h.order_lines, ?_⟩
  rw [hevents, List.map_append, List.map_append, h.order_events]
  rfl

/-- The event that a transaction has drawn an id for. -/
theorem Numbered.commit (h : s.Numbered) {order_id : OrderId} {update : StatusUpdate}
    (hdrawn : s.drawnBy client = some update.eventId)
    (hclients : s'.clients = Function.update s.clients client none)
    (hevents : s'.order_events = s.order_events ++ [update.row order_id]) (hseq : s'.sequence = s.sequence) :
    s'.Numbered := by
  obtain ⟨hlt, hne⟩ := h.drawn client _ hdrawn
  have hothers : ∀ client' n, s'.drawnBy client' = some n →
      s.drawnBy client' = some n ∧ n ≠ update.eventId := by
    intro client' n hn
    rw [drawnBy_update hclients] at hn
    by_cases hclient : client' = client
    · subst hclient
      rw [Function.update_self] at hn
      cases hn
    · rw [Function.update_of_ne hclient] at hn
      refine ⟨hn, ?_⟩
      rintro rfl
      exact hclient (h.apart client' client _ hn hdrawn)
  constructor
  · rw [hevents, List.map_append, List.map_singleton]
    refine List.nodup_append.mpr ⟨h.nodup, List.nodup_singleton _, fun n hn n' hn' => ?_⟩
    obtain ⟨e, he, rfl⟩ := List.mem_map.mp hn
    rw [List.mem_singleton.mp hn']
    exact hne e he
  · rw [hevents, hseq]
    exact List.forall_mem_append.mpr ⟨h.below, List.forall_mem_singleton.mpr hlt⟩
  · intro client' n hn
    obtain ⟨hold, hother⟩ := hothers client' n hn
    obtain ⟨hlt', hne'⟩ := h.drawn client' n hold
    rw [hevents, hseq]
    exact ⟨hlt', List.forall_mem_append.mpr ⟨hne', List.forall_mem_singleton.mpr hother.symm⟩⟩
  · intro client₁ client₂ n h₁ h₂
    exact h.apart client₁ client₂ n (hothers client₁ n h₁).1 (hothers client₂ n h₂).1

theorem replayed_commit (h : Replayed pg s) (ht : s.clients client = some t)
    (hs : s.commit client t = some s') : Replayed pg s' := by
  have hinv := inv_commit h.inv ht hs
  have hsound := h.inv.sound client t ht
  have hchecked := h.checked client t ht
  obtain ⟨serial, hreplay, hsame⟩ := h.serial
  have hothers : ∀ client' t', Function.update s.clients client none client' = some t' → t'.Checked pg := by
    intro client' t' ht'
    by_cases hclient : client' = client
    · subst hclient
      rw [Function.update_self] at ht'
      cases ht'
    · rw [Function.update_of_ne hclient] at ht'
      exact h.checked client' t' ht'
  cases t with
  | begun call => cases hs
  | updated order_id id status event => cases hs
  | inserting order row lines rest =>
    cases rest with
    | cons line rest => cases hs
    | nil =>
      obtain rfl := Option.some.inj hs
      obtain ⟨serial', hcreate, horders, hlines, hevents⟩ := hsame.create hsound hchecked
      have hnumbered : (s.release client).Numbered := h.numbered.quiet (@quiet_release pg s client)
      refine ⟨hinv, hothers, ?_, serial', ?_, horders, hlines, ?_⟩
      · exact ⟨hnumbered.nodup, hnumbered.below, hnumbered.drawn, hnumbered.apart⟩
      · rw [Tables.replay_append hreplay]
        exact hcreate
      · rw [hevents]
        exact hsame.order_events
  | recorded order_id update =>
    obtain rfl := Option.some.inj hs
    obtain ⟨serial', hupdate, horders, hlines, hevents⟩ := hsame.updateStatus hsound hchecked
    refine ⟨hinv, hothers, h.numbered.commit (drawn_of ht) rfl rfl rfl, serial', ?_, horders, hlines, hevents⟩
    rw [Tables.replay_append hreplay]
    exact hupdate

theorem replayed_step (h : Replayed pg s) {a : PgStep} (hs : s.step pg a = some s') : Replayed pg s' := by
  rcases step_cases hs with ⟨client, at', hq⟩ | ⟨client, t, ht, hcommit⟩
  · exact h.quiet (inv_step h.inv hs) hq
  · exact replayed_commit h ht hcommit

theorem replayed_run (h : Replayed pg s) {steps : List PgStep} (hrun : s.run pg steps = some s') :
    Replayed pg s' := by
  induction steps generalizing s with
  | nil =>
    obtain rfl := Option.some.inj hrun
    exact h
  | cons a steps ih =>
    obtain ⟨s₁, hs, hrest⟩ := Option.bind_eq_some_iff.mp hrun
    exact ih (replayed_step h hs) hrest

/-! ## What is read of the committed tables -/

theorem recorded_unnumbered (events : List OrderEventRow) (id : OrderId) :
    (events.filter fun e => e.order_id = id).map (fun e => (⟨e.type, e.at, e.detail⟩ : OrderEvent)) =
      ((events.map OrderEventRow.unnumbered).filter fun p => p.1 = id).map Prod.snd := by
  rw [List.filter_map, List.map_map]
  rfl

theorem eventsOf_increasing (h : Inv pg s) (id : OrderId) :
    (s.eventsOf id).Pairwise fun e e' => e.id < e'.id := by
  rw [(h.told id).events]
  exact List.pairwise_map.mpr (h.told id).increasing

/-- The events of one order were committed in the order of their ids. -/
theorem Committed.recorded {t : Tables pg} (h : s.Committed t) (hinv : Inv pg s) (id : OrderId) :
    t.recorded id = (s.eventsOf id).map fun e => ⟨e.type, e.at, e.detail⟩ := by
  have hsame : (t.order_events.filter fun e => e.order_id = id) = s.eventsOf id := by
    refine List.Perm.eq_of_pairwise (fun e e' _ _ hlt hlt' => ?_) (t.order_events_key.filter _)
      (eventsOf_increasing hinv id) (h.order_events.filter _)
    omega
  rw [Tables.recorded, hsame]

theorem Echoes.recorded {t : Tables pg} (h : s.Echoes t) (id : OrderId) :
    t.recorded id = (s.eventsOf id).map fun e => ⟨e.type, e.at, e.detail⟩ := by
  rw [Tables.recorded, eventsOf, recorded_unnumbered, recorded_unnumbered, h.order_events]

theorem Echoes.order_of_event {t : Tables pg} (h : s.Echoes t) {e : OrderEventRow} (he : e ∈ s.order_events) :
    e.order_id ∈ t.orders.map OrderRow.id := by
  have hmem : e.unnumbered ∈ t.order_events.map OrderEventRow.unnumbered :=
    h.order_events ▸ List.mem_map_of_mem he
  obtain ⟨e', he', heq⟩ := List.mem_map.mp hmem
  have hid : e'.order_id = e.order_id := congrArg Prod.fst heq
  exact hid ▸ t.order_events_order e' he'

theorem Replayed.committed (h : Replayed pg s) : ∃ t : Tables pg, s.Committed t := by
  obtain ⟨serial, -, hsame⟩ := h.serial
  have hperm := List.perm_insertionSort (fun e e' : OrderEventRow => e.id ≤ e'.id) s.order_events
  refine ⟨{ serial with
    order_events := s.order_events.insertionSort fun e e' => e.id ≤ e'.id
    sequence := s.sequence
    order_events_order := ?_
    order_events_key := ?_
    order_events_sequence := ?_ }, hsame.orders, hsame.order_lines, hperm, rfl⟩
  · intro e he
    exact hsame.order_of_event (hperm.mem_iff.mp he)
  · have hnodup : ((s.order_events.insertionSort fun e e' => e.id ≤ e'.id).map OrderEventRow.id).Nodup :=
      (hperm.map _).nodup_iff.mpr h.numbered.nodup
    refine ((List.pairwise_insertionSort _ _).and (List.pairwise_map.mp hnodup)).imp ?_
    intro e e' hle
    exact lt_of_le_of_ne hle.1 hle.2
  · intro e he
    exact h.numbered.below e (hperm.mem_iff.mp he)

theorem Replayed.serializable (h : Replayed pg s) : s.Serializable pg := by
  obtain ⟨serial, hreplay, hsame⟩ := h.serial
  obtain ⟨t, ht⟩ := h.committed
  refine ⟨t, serial, ht, hreplay, Tables.ReadAlike.of_recorded ?_ ?_ fun id => ?_⟩
  · exact ht.orders.trans hsame.orders.symm
  · exact ht.order_lines.trans hsame.order_lines.symm
  · rw [ht.recorded h.inv, hsame.recorded]

/-! ## Real time -/

theorem log_step {a : PgStep} (hs : s.step pg a = some s') : s.log <+: s'.log := by
  rcases step_cases hs with ⟨client, at', hq⟩ | ⟨client, t, -, hcommit⟩
  · rw [hq.log]
  · cases t with
    | begun call => cases hcommit
    | updated order_id id status event => cases hcommit
    | inserting order row lines rest =>
      cases rest with
      | cons line rest => cases hcommit
      | nil =>
        obtain rfl := Option.some.inj hcommit
        exact List.prefix_append _ _
    | recorded order_id update =>
      obtain rfl := Option.some.inj hcommit
      exact List.prefix_append _ _

theorem log_run {steps : List PgStep} (hrun : s.run pg steps = some s') : s.log <+: s'.log := by
  induction steps generalizing s with
  | nil =>
    obtain rfl := Option.some.inj hrun
    exact List.prefix_rfl
  | cons a steps ih =>
    obtain ⟨s₁, hs, hrest⟩ := Option.bind_eq_some_iff.mp hrun
    exact (log_step hs).trans (ih hrest)

theorem run_append {before after : List PgStep} (hrun : s.run pg (before ++ after) = some s') :
    ∃ s₁, s.run pg before = some s₁ ∧ s₁.run pg after = some s' := by
  rw [run, List.foldlM_append] at hrun
  exact Option.bind_eq_some_iff.mp hrun

/-- However the transactions are interleaved, and wherever they fail, the committed tables read as if the calls
that have succeeded had been executed one after the other, in the order of their commits: a call that has
returned before another begins comes before it. -/
theorem transactions_serializable {steps : List PgStep} (hrun : empty.run pg steps = some s) :
    s.Serializable pg ∧ ∀ before, before <+: steps → ∃ s₁, empty.run pg before = some s₁ ∧ s₁.log <+: s.log := by
  refine ⟨(replayed_run (replayed_empty pg) hrun).serializable, ?_⟩
  rintro before ⟨after, rfl⟩
  obtain ⟨s₁, hbefore, hafter⟩ := run_append hrun
  exact ⟨s₁, hbefore, log_run hafter⟩

/-- An order of one unit. -/
def crossedOrder (id : OrderId) : Order := newOrder id "customer" [⟨"sku", 1, "w1"⟩] 100 none 1

/-- Two clients create an order each, and update it: the one that has drawn its id later commits first. -/
def crossedSteps : List PgStep :=
  let a := "00000000-0000-4000-8000-00000000000a"
  let b := "00000000-0000-4000-8000-00000000000b"
  [.call 0 (.create (crossedOrder a)), .call 1 (.create (crossedOrder b)), .statement 0 0, .statement 1 0,
    .statement 1 0, .statement 0 0, .commit 1, .commit 0,
    .call 0 (.updateStatus a .INVENTORY_RESERVED ⟨.inventoryReserved, 2, {}⟩),
    .call 1 (.updateStatus b .COMPENSATING ⟨.compensating, 3, {}⟩),
    .statement 0 0, .statement 1 0, .statement 0 0, .statement 1 3, .commit 1, .commit 0]

theorem crossedSteps_serializable : ∃ s, empty.run .plain crossedSteps = some s ∧
    s.order_events.map OrderEventRow.id = [5, 1] ∧ s.Serializable .plain ∧
      ∀ before, before <+: crossedSteps → ∃ s₁, empty.run .plain before = some s₁ ∧ s₁.log <+: s.log := by
  have hends :
      ((empty.run .plain crossedSteps).map fun s => s.order_events.map OrderEventRow.id) = some [5, 1] := by
    decide +kernel
  obtain ⟨s, hrun, hids⟩ := Option.map_eq_some_iff.mp hends
  exact ⟨s, hrun, hids, transactions_serializable hrun⟩

/-! ## The store in memory -/

theorem replay_append_some {calls : List Success} {call : Success} {t : Tables pg}
    (h : Tables.empty.replay (calls ++ [call]) = some t) :
    ∃ t₁, Tables.empty.replay calls = some t₁ ∧ t₁.execute call = some t := by
  rw [Tables.replay, List.foldlM_append] at h
  obtain ⟨t₁, h₁, h⟩ := Option.bind_eq_some_iff.mp h
  exact ⟨t₁, h₁, (Option.bind_fun_some _).symm.trans h⟩

theorem execute_perform {t t' : Tables pg} {call : Success} (h : t.execute call = some t') :
    t' = t.perform call.op := by
  cases call with
  | create order =>
    have h : t.create order = some t' := h
    rw [Success.op, Tables.perform, h, Option.getD_some]
  | updateStatus update =>
    have h : t.updateStatus update.id update.status update.event = some t' := h
    rw [Success.op, Tables.perform, h, Option.getD_some]

/-- The serial order has the same effect in memory. -/
theorem agree_replay {calls : List Success} {t : Tables pg} (hcanonical : ∀ call ∈ calls, call.Canonical pg)
    (h : Tables.empty.replay calls = some t) : StoreOp.Agree (StoreOp.memory (calls.map Success.op)) t := by
  induction calls using List.reverseRecOn generalizing t with
  | nil =>
    obtain rfl := Option.some.inj h
    rfl
  | append_singleton calls call ih =>
    obtain ⟨hbefore, hcall⟩ := List.forall_mem_append.mp hcanonical
    have hcall := List.forall_mem_singleton.mp hcall
    obtain ⟨t₁, h₁, hexecute⟩ := replay_append_some h
    have hagree := ih hbefore h₁
    rw [List.map_append, List.map_singleton, StoreOp.memory_append, execute_perform hexecute]
    cases call with
    | create order =>
      obtain ⟨hu, hb, hhistory⟩ := hcall
      obtain ⟨b, hb', u, hu', hfresh, -⟩ := Tables.create_spec hexecute
      obtain rfl := Option.some.inj (hu.symm.trans hu')
      exact hagree.create hu hb hhistory hfresh
        ((Tables.create_iff_meets order hu hb hfresh).mp ⟨t, hexecute⟩)
    | updateStatus update =>
      obtain ⟨u, hu, hmem, hstorable, -⟩ := Tables.updateStatus_spec hexecute
      obtain rfl := Option.some.inj (Eq.trans (Eq.symm hcall) hu)
      exact hagree.update hmem hstorable

/-- Transactions of any number of clients show in every scope what the store in memory would show after the
calls that have succeeded, in the order of their commits. -/
theorem committed_shows_memory {steps : List PgStep} (hrun : empty.run pg steps = some s)
    (hcanonical : ∀ call ∈ s.log, call.Canonical pg) :
    ∃ t : Tables pg, s.Committed t ∧ t.ShowsAs (StoreOp.memory (s.log.map Success.op)) := by
  obtain ⟨t, serial, ht, hreplay, hread⟩ := (replayed_run (replayed_empty pg) hrun).serializable
  exact ⟨t, ht, hread.showsAs (agree_replay hcanonical hreplay)⟩

theorem crossedSteps_shown : ∃ s, empty.run .plain crossedSteps = some s ∧
    ∃ t : Tables .plain, s.Committed t ∧ t.ShowsAs (StoreOp.memory (s.log.map Success.op)) := by
  have hends : ((empty.run .plain crossedSteps).map fun s =>
      decide (∀ call ∈ s.log, call.Canonical .plain)) = some true := by
    decide +kernel
  obtain ⟨s, hrun, hcanonical⟩ := Option.map_eq_some_iff.mp hends
  exact ⟨s, hrun, committed_shows_memory hrun (of_decide_eq_true hcanonical)⟩

end PgServer

end SupplyChain
