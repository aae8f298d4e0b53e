import SupplyChain.Orders.PgTransactions

/-!
# Proofs: the transactions of `PgOrderStore`

A transaction that has the lock of an order is alone with it: what it found when it got the lock holds until
it ends. So each commit finds the order as the commits before it left it.
-/

namespace SupplyChain

open Collections

namespace PgServer

variable {pg : Postgres} {s s' : PgServer} {id : OrderId} {client : Nat} {t : Transaction}

/-! ## What is told about one order -/

/-- The committed rows of an order. -/
def rowsOf (s : PgServer) (id : OrderId) : List OrderRow := s.orders.filter fun r => r.id = id

theorem rowsOf_eq_nil : s.rowsOf id = [] ↔ id ∉ s.orders.map OrderRow.id := by
  simp [rowsOf, List.filter_eq_nil_iff]

/-- The two states hold the same about an order. -/
structure Same (pg : Postgres) (id : OrderId) (s s' : PgServer) : Prop where
  rows : s'.rowsOf id = s.rowsOf id
  lines : s'.linesOf id = s.linesOf id
  events : s'.eventsOf id = s.eventsOf id
  created : s'.created pg id = s.created pg id
  updates : s'.updates pg id = s.updates pg id
  sequence : s.sequence ≤ s'.sequence

/-- The status after some updates. -/
def lastStatus (created : OrderStatus) (updates : List StatusUpdate) : OrderStatus :=
  (updates.getLast?.map StatusUpdate.status).getD created

/-- What the tables hold about an order is what the calls that succeeded have told of it. -/
structure Told (pg : Postgres) (id : OrderId) (s : PgServer) : Prop where
  once : (s.created pg id).length ≤ 1
  rows : (s.rowsOf id).map OrderRow.status =
    (s.created pg id).map fun order => lastStatus order.status (s.updates pg id)
  lines : s.linesOf id = (s.created pg id).flatMap fun order => order.lines.map (OrderLine.row id)
  events : s.eventsOf id = (s.updates pg id).map (StatusUpdate.row id)
  known : s.created pg id = [] → s.updates pg id = []
  increasing : (s.updates pg id).Pairwise fun u u' => u.eventId < u'.eventId
  drawn : ∀ u ∈ s.updates pg id, u.eventId < s.sequence

theorem Told.same (h : Told pg id s) (hsame : Same pg id s s') : Told pg id s' where
  once := by rw [hsame.created]; exact h.once
  rows := by rw [hsame.rows, hsame.created, hsame.updates]; exact h.rows
  lines := by rw [hsame.lines, hsame.created]; exact h.lines
  events := by rw [hsame.events, hsame.updates]; exact h.events
  known := by rw [hsame.created, hsame.updates]; exact h.known
  increasing := by rw [hsame.updates]; exact h.increasing
  drawn := by
    intro u hu
    rw [hsame.updates] at hu
    exact (h.drawn u hu).trans_le hsame.sequence

/-! ## Transactions in flight -/

/-- What holds of a transaction until it ends. -/
def Sound (pg : Postgres) (s : PgServer) : Transaction → Prop
  | .begun _ => True
  | .inserting order row lines rest =>
    pg.uuid order.id = some row.id ∧ row.status = order.status ∧ s.rowsOf row.id = [] ∧
      ∃ done, order.lines = done ++ rest ∧ lines = done.map (OrderLine.row row.id)
  | .updated order_id id _ _ => pg.uuid id = some order_id ∧ s.rowsOf order_id ≠ []
  | .recorded order_id update =>
    pg.uuid update.id = some order_id ∧ s.rowsOf order_id ≠ [] ∧ update.eventId < s.sequence ∧
      ∀ u ∈ s.updates pg order_id, u.eventId < update.eventId

theorem Sound.same (h : Sound pg s t) (hseq : s.sequence ≤ s'.sequence)
    (hsame : ∀ id, t.locked = some id → Same pg id s s') : Sound pg s' t := by
  cases t with
  | begun call => trivial
  | inserting order row lines rest =>
    obtain ⟨huuid, hstatus, hnone, hlines⟩ := h
    exact ⟨huuid, hstatus, by rw [(hsame row.id rfl).rows]; exact hnone, hlines⟩
  | updated order_id id status event =>
    obtain ⟨huuid, hsome⟩ := h
    exact ⟨huuid, by rw [(hsame order_id rfl).rows]; exact hsome⟩
  | recorded order_id update =>
    obtain ⟨huuid, hsome, hdrawn, hlast⟩ := h
    have hid := hsame order_id rfl
    exact ⟨huuid, by rw [hid.rows]; exact hsome, hdrawn.trans_le hseq, by rw [hid.updates]; exact hlast⟩

/-- The order that a client has locked. -/
def holds (s : PgServer) (client : Nat) : Option OrderId := (s.clients client).bind Transaction.locked

/-- What the committed rows, the locks and the transactions always satisfy. -/
structure Inv (pg : Postgres) (s : PgServer) : Prop where
  told : ∀ id, Told pg id s
  sound : ∀ client t, s.clients client = some t → Sound pg s t
  held : s.locks.Held s.holds

theorem inv_empty (pg : Postgres) : Inv pg empty where
  told id := by
    constructor <;> simp [empty, created, updates, rowsOf, linesOf, eventsOf]
  sound := by
    intro client t ht
    cases ht
  held := Locks.held_empty

/-- A step of one client. What it does to the tables it does to the order that the client has locked. -/
theorem Inv.step (h : Inv pg s) {at' : Option Transaction}
    (hclients : s'.clients = Function.update s.clients client at')
    (hheld : s'.locks.Held (Function.update s.holds client (at'.bind Transaction.locked)))
    (hseq : s.sequence ≤ s'.sequence)
    (htold : ∀ id, Same pg id s s' ∨ s.holds client = some id ∧ Told pg id s')
    (hsound : ∀ t, at' = some t → Sound pg s' t) : Inv pg s' where
  told := by
    intro id
    rcases htold id with hsame | ⟨-, htold⟩
    · exact (h.told id).same hsame
    · exact htold
  sound := by
    intro client' t ht
    rw [hclients] at ht
    by_cases hclient : client' = client
    · subst hclient
      rw [Function.update_self] at ht
      exact hsound t ht
    · rw [Function.update_of_ne hclient] at ht
      refine (h.sound client' t ht).same hseq fun id hid => ?_
      rcases htold id with hsame | ⟨hholds, -⟩
      · exact hsame
      · have hother : s.holds client' = some id := by rw [holds, ht]; exact hid
        exact absurd (h.held.unique hother hholds) hclient
  held := by
    have hholds : s'.holds = Function.update s.holds client (at'.bind Transaction.locked) := by
      funext client'
      unfold holds
      rw [hclients]
      by_cases hclient : client' = client
      · subst hclient
        rw [Function.update_self, Function.update_self]
      · rw [Function.update_of_ne hclient, Function.update_of_ne hclient]
    rw [hholds]
    exact hheld

/-! ## The steps -/

theorem same_of_tables (horders : s'.orders = s.orders) (hlines : s'.order_lines = s.order_lines)
    (hevents : s'.order_events = s.order_events) (hlog : s'.log = s.log) (hseq : s.sequence ≤ s'.sequence) :
    Same pg id s s' where
  rows := by rw [rowsOf, horders]; rfl
  lines := by rw [linesOf, hlines]; rfl
  events := by rw [eventsOf, hevents]; rfl
  created := by rw [created, hlog]; rfl
  updates := by rw [updates, hlog]; rfl
  sequence := hseq

theorem holds_of (ht : s.clients client = some t) : s.holds client = t.locked := by
  rw [holds, ht]
  rfl

theorem inv_call (h : Inv pg s) {call : StoreOp} (hidle : s.clients client = none) :
    Inv pg (s.goOn client (.begun call)) := by
  refine h.step rfl ?_ le_rfl (fun id => .inl (same_of_tables rfl rfl rfl rfl le_rfl)) ?_
  · exact h.held.keep (by rw [holds, hidle]; rfl)
  · rintro t ⟨⟩
    trivial

theorem inv_release (h : Inv pg s) : Inv pg (s.release client) := by
  refine h.step rfl h.held.release le_rfl (fun id => .inl (same_of_tables rfl rfl rfl rfl le_rfl)) ?_
  intro t ht
  cases ht

/-- A transaction that goes on with the lock that it has, or without one. -/
theorem inv_goOn (h : Inv pg s) {t' : Transaction} (ht : s.clients client = some t)
    (hlocked : t'.locked = t.locked) (hsound : Sound pg s t') : Inv pg (s.goOn client t') := by
  refine h.step rfl ?_ le_rfl (fun id => .inl (same_of_tables rfl rfl rfl rfl le_rfl)) ?_
  · exact h.held.keep ((holds_of ht).trans hlocked.symm)
  · rintro _ ⟨⟩
    exact hsound.same le_rfl fun id _ => same_of_tables rfl rfl rfl rfl le_rfl

/-- A transaction that gets its lock. -/
theorem inv_lock (h : Inv pg s) {t' : Transaction} {call : StoreOp}
    (ht : s.clients client = some (.begun call)) (hfree : s.locks id = none)
    (hlocked : t'.locked = some id) (hsound : Sound pg s t') :
    Inv pg ((s.lock client id).goOn client t') := by
  refine h.step rfl ?_ le_rfl (fun id => .inl (same_of_tables rfl rfl rfl rfl le_rfl)) ?_
  · show (s.locks.acquire id client).Held (Function.update s.holds client t'.locked)
    rw [hlocked]
    exact h.held.acquire hfree (holds_of ht)
  · rintro _ ⟨⟩
    exact hsound.same le_rfl fun id _ => same_of_tables rfl rfl rfl rfl le_rfl

theorem insertedRow_spec {order : Order} {row : OrderRow} (h : order.insertedRow pg = some row) :
    pg.uuid order.id = some row.id ∧ row.status = order.status := by
  obtain ⟨id, hid, h⟩ := Option.bind_eq_some_iff.mp h
  obtain ⟨business_id, -, h⟩ := Option.bind_eq_some_iff.mp h
  obtain rfl := Option.some.inj h
  exact ⟨hid, rfl⟩

theorem inv_statement (h : Inv pg s) {skipped : Nat} (ht : s.clients client = some t)
    (hs : s.statement pg client skipped t = some s') : Inv pg s' := by
  cases t with
  | begun call =>
    cases call with
    | create order =>
      obtain ⟨row, hrow, hs⟩ := Option.bind_eq_some_iff.mp hs
      obtain ⟨huuid, hstatus⟩ := insertedRow_spec hrow
      split at hs
      · rename_i hinsert
        obtain ⟨-, hfresh, hfree⟩ := hinsert
        obtain rfl := Option.some.inj hs
        exact inv_lock h ht hfree rfl ⟨huuid, hstatus, rowsOf_eq_nil.mpr hfresh, [], rfl, rfl⟩
      · cases hs
    | updateStatus id status event =>
      obtain ⟨order_id, huuid, hs⟩ := Option.bind_eq_some_iff.mp hs
      split at hs
      · rename_i hfound
        obtain ⟨hknown, hfree⟩ := hfound
        obtain rfl := Option.some.inj hs
        exact inv_lock h ht hfree rfl ⟨huuid, fun hnone => rowsOf_eq_nil.mp hnone hknown⟩
      · cases hs
  | inserting order row lines rest =>
    cases rest with
    | nil => cases hs
    | cons line rest =>
      simp only [statement] at hs
      split at hs
      · obtain rfl := Option.some.inj hs
        obtain ⟨huuid, hstatus, hnone, done, hlines, rfl⟩ := h.sound client _ ht
        refine inv_goOn h ht rfl ⟨huuid, hstatus, hnone, done ++ [line], ?_, ?_⟩
        · rw [hlines, List.append_assoc]
          rfl
        · rw [List.map_append]
          rfl
      · cases hs
  | updated order_id id status event =>
    simp only [statement] at hs
    split at hs
    · obtain rfl := Option.some.inj hs
      obtain ⟨huuid, hknown⟩ := h.sound client _ ht
      have hseq : s.sequence ≤ s.sequence + skipped + 1 := by omega
      refine h.step rfl (h.held.keep (holds_of ht)) hseq
        (fun id => .inl (same_of_tables rfl rfl rfl rfl hseq)) ?_
      rintro _ ⟨⟩
      refine ⟨huuid, hknown, Nat.lt_succ_self _, fun u hu => ?_⟩
      have hdrawn := (h.told order_id).drawn u hu
      show u.eventId < s.sequence + skipped
      omega
    · cases hs
  | recorded order_id update => cases hs

/-! ## Commits -/

section Commit

variable {order : Order} {row : OrderRow} {lines : List OrderLineRow} {order_id : OrderId}
  {update : StatusUpdate}

/-- After the commit of a `create`. -/
theorem told_created (h : Told pg row.id s) (hsound : Sound pg s (.inserting order row lines []))
    (hrows : s'.rowsOf row.id = s.rowsOf row.id ++ [row])
    (hlines : s'.linesOf row.id = s.linesOf row.id ++ lines)
    (hevents : s'.eventsOf row.id = s.eventsOf row.id)
    (hcreated : s'.created pg row.id = s.created pg row.id ++ [order])
    (hupdates : s'.updates pg row.id = s.updates pg row.id) :
    Told pg row.id s' := by
  obtain ⟨huuid, hstatus, hnone, done, hdone, rfl⟩ := hsound
  rw [List.append_nil] at hdone
  have hfirst : s.created pg row.id = [] := by
    have hrows := h.rows
    rw [hnone] at hrows
    exact List.map_eq_nil_iff.mp hrows.symm
  have hquiet := h.known hfirst
  have hbare : s.linesOf row.id = [] := by rw [h.lines, hfirst]; rfl
  rw [hnone] at hrows
  rw [hfirst] at hcreated
  rw [hquiet] at hupdates
  rw [hbare] at hlines
  constructor
  · rw [hcreated]
    exact le_rfl
  · rw [hrows, hcreated, hupdates]
    exact congrArg (· :: []) hstatus
  · rw [hlines, hcreated, ← hdone]
    simp
  · rw [hevents, h.events, hupdates, hquiet]
  · exact fun _ => hupdates
  · rw [hupdates]
    exact List.Pairwise.nil
  · rw [hupdates]
    exact List.forall_mem_nil _

/-- After the commit of an `updateStatus`. -/
theorem told_updated (h : Told pg order_id s) (hsound : Sound pg s (.recorded order_id update))
    (hrows : s'.rowsOf order_id = (s.rowsOf order_id).map fun r => { r with status := update.status })
    (hlines : s'.linesOf order_id = s.linesOf order_id)
    (hevents : s'.eventsOf order_id = s.eventsOf order_id ++ [update.row order_id])
    (hcreated : s'.created pg order_id = s.created pg order_id)
    (hupdates : s'.updates pg order_id = s.updates pg order_id ++ [update]) (hseq : s.sequence ≤ s'.sequence) :
    Told pg order_id s' := by
  obtain ⟨huuid, hknown, hdrawn, hlast⟩ := hsound
  have hlength : (s.rowsOf order_id).length = (s.created pg order_id).length := by
    have hlengths := congrArg List.length h.rows
    rwa [List.length_map, List.length_map] at hlengths
  constructor
  · rw [hcreated]
    exact h.once
  · have hstatus : (s.rowsOf order_id).map (fun _ => update.status) =
        (s.created pg order_id).map fun _ => update.status := by
      rw [List.map_const', List.map_const', hlength]
    rw [hrows, hcreated, hupdates, List.map_map]
    simpa [lastStatus, Function.comp_def] using hstatus
  · rw [hlines, hcreated]
    exact h.lines
  · rw [hevents, hupdates, h.events, List.map_append]
    rfl
  · intro hnone
    rw [hcreated] at hnone
    rw [hnone, List.length_nil, List.length_eq_zero_iff] at hlength
    exact absurd hlength hknown
  · rw [hupdates]
    refine List.pairwise_append.mpr ⟨h.increasing, List.pairwise_singleton _ _, fun u hu u' hu' => ?_⟩
    rw [List.mem_singleton.mp hu']
    exact hlast u hu
  · intro u hu
    rw [hupdates] at hu
    rcases List.mem_append.mp hu with hold | hnew
    · exact (h.drawn u hold).trans_le hseq
    · rw [List.mem_singleton.mp hnew]
      exact hdrawn.trans_le hseq

end Commit

theorem filter_update (rows : List OrderRow) (order_id : OrderId) (status : OrderStatus) :
    (rows.map (OrderRow.update order_id status)).filter (fun r => r.id = id) =
      (rows.filter fun r => r.id = id).map (OrderRow.update order_id status) := by
  rw [List.filter_map]
  congr 1
  refine List.filter_congr fun r _ => ?_
  rw [Function.comp_apply, OrderRow.update_id]

theorem filter_row_lines {order_id : OrderId} (lines : List OrderLine) :
    (lines.map (OrderLine.row order_id)).filter (fun l => l.order_id = id) =
      if order_id = id then lines.map (OrderLine.row order_id) else [] := by
  split
  · rename_i hid
    refine List.filter_eq_self.mpr fun l hl => ?_
    obtain ⟨line, -, rfl⟩ := List.mem_map.mp hl
    exact decide_eq_true hid
  · rename_i hid
    refine List.filter_eq_nil_iff.mpr fun l hl => ?_
    obtain ⟨line, -, rfl⟩ := List.mem_map.mp hl
    exact fun h => hid (of_decide_eq_true h)

theorem inv_commit (h : Inv pg s) (ht : s.clients client = some t) (hs : s.commit client t = some s') :
    Inv pg s' := by
  have hsound := h.sound client t ht
  have hholds := holds_of ht
  cases t with
  | begun call => cases hs
  | updated order_id id status event => cases hs
  | inserting order row lines rest =>
    cases rest with
    | cons line rest => cases hs
    | nil =>
      obtain rfl := Option.some.inj hs
      have hsound' := hsound
      obtain ⟨huuid, -, -, done, -, rfl⟩ := hsound'
      refine h.step rfl h.held.release le_rfl (fun id => ?_) fun t ht => by cases ht
      by_cases hid : row.id = id
      · subst hid
        refine .inr ⟨hholds, told_created (h.told row.id) hsound ?_ ?_ rfl ?_ ?_⟩
        · simp [rowsOf]
        · rw [linesOf, List.filter_append, filter_row_lines, if_pos rfl]
          rfl
        · simp [created, Success.created, huuid]
        · simp [updates, Success.update]
      · refine .inl ⟨?_, ?_, rfl, ?_, ?_, le_rfl⟩
        · simp [rowsOf, hid]
        · rw [linesOf, List.filter_append, filter_row_lines, if_neg hid, List.append_nil]
          rfl
        · simp [created, Success.created, huuid, hid]
        · simp [updates, Success.update]
  | recorded order_id update =>
    obtain rfl := Option.some.inj hs
    obtain ⟨huuid, -⟩ := id hsound
    refine h.step rfl h.held.release le_rfl (fun id => ?_) fun t ht => by cases ht
    by_cases hid : order_id = id
    · subst hid
      refine .inr ⟨hholds, told_updated (h.told order_id) hsound ?_ rfl ?_ ?_ ?_ le_rfl⟩
      · rw [rowsOf, filter_update]
        refine List.map_congr_left fun r hr => ?_
        exact if_pos (of_decide_eq_true (List.mem_filter.mp hr).2)
      · simp [eventsOf, StatusUpdate.row]
      · simp [created, Success.created]
      · simp [updates, Success.update, huuid]
    · refine .inl ⟨?_, rfl, ?_, ?_, ?_, le_rfl⟩
      · rw [rowsOf, filter_update]
        refine (List.map_congr_left fun r hr => ?_).trans (List.map_id _)
        have hr := of_decide_eq_true (List.mem_filter.mp hr).2
        exact if_neg fun h => hid (h.symm.trans hr)
      · simp [eventsOf, StatusUpdate.row, hid]
      · simp [created, Success.created]
      · simp [updates, Success.update, huuid, hid]

theorem inv_step (h : Inv pg s) {a : PgStep} (hs : s.step pg a = some s') : Inv pg s' := by
  cases a with
  | call client call =>
    simp only [PgServer.step] at hs
    split at hs
    · rename_i hidle
      obtain rfl := Option.some.inj hs
      exact inv_call h hidle
    · cases hs
  | statement client skipped =>
    obtain ⟨t, ht, hs⟩ := Option.bind_eq_some_iff.mp hs
    exact inv_statement h ht hs
  | commit client =>
    obtain ⟨t, ht, hs⟩ := Option.bind_eq_some_iff.mp hs
    exact inv_commit h ht hs
  | fail client =>
    obtain ⟨t, -, rfl⟩ := Option.map_eq_some_iff.mp hs
    exact inv_release h

theorem inv_run (h : Inv pg s) {steps : List PgStep} (hrun : s.run pg steps = some s') : Inv pg s' := by
  induction steps generalizing s with
  | nil =>
    obtain rfl := Option.some.inj hrun
    exact h
  | cons a steps ih =>
    obtain ⟨s₁, hs, hrest⟩ := Option.bind_eq_some_iff.mp hrun
    exact ih (inv_step h hs) hrest

/-! ## The stored orders -/

/-- The event with the highest id is that of the last update. -/
theorem last_update {updates : List StatusUpdate} {order_id : OrderId} {e : OrderEventRow}
    (hincreasing : updates.Pairwise fun u u' => u.eventId < u'.eventId)
    (he : e ∈ updates.map (StatusUpdate.row order_id))
    (hhighest : ∀ e' ∈ updates.map (StatusUpdate.row order_id), e'.id ≤ e.id) :
    ∃ before update, updates = before ++ [update] ∧ e = update.row order_id := by
  rcases List.eq_nil_or_concat updates with rfl | ⟨before, last, rfl⟩
  · cases he
  · rw [List.concat_eq_append] at *
    refine ⟨before, last, rfl, ?_⟩
    obtain ⟨u, hu, rfl⟩ := List.mem_map.mp he
    rcases List.mem_append.mp hu with hold | hnew
    · have hlater := (List.pairwise_append.mp hincreasing).2.2 u hold last (List.mem_singleton_self _)
      have hle := hhighest (last.row order_id)
        (List.mem_map_of_mem (List.mem_append_right _ List.mem_cons_self))
      exact absurd hlater (Nat.not_lt.mpr hle)
    · rw [List.mem_singleton.mp hnew]

theorem Told.agrees {row : OrderRow} (h : Told pg row.id s) (hrow : row ∈ s.orders) : s.Agrees pg row := by
  have hmem : row ∈ s.rowsOf row.id := List.mem_filter.mpr ⟨hrow, decide_eq_true rfl⟩
  have hstatus : row.status ∈ (s.created pg row.id).map fun order =>
      lastStatus order.status (s.updates pg row.id) := h.rows ▸ List.mem_map_of_mem hmem
  obtain ⟨order, horder, hstatus⟩ := List.mem_map.mp hstatus
  have honly : s.created pg row.id = [order] := by
    obtain ⟨order', honly⟩ := List.length_eq_one_iff.mp (h.once.antisymm (List.length_pos_of_mem horder))
    rw [honly] at horder ⊢
    rw [List.mem_singleton.mp horder]
  refine ⟨order, honly, ?_, ?_, ?_, ?_⟩
  · rw [h.lines, honly, List.flatMap_singleton]
  · rw [h.events, List.length_map]
  · intro hnone
    rw [h.events, List.map_eq_nil_iff] at hnone
    rw [← hstatus, hnone]
    rfl
  · intro e he hhighest
    rw [h.events] at he hhighest
    obtain ⟨before, update, hupdates, rfl⟩ := last_update h.increasing he hhighest
    refine ⟨update, ?_, rfl, ?_⟩
    · have hbefore : before.filter (fun u => u.eventId = (update.row row.id).id) = [] := by
        refine List.filter_eq_nil_iff.mpr fun u hu => ?_
        have hincreasing := h.increasing
        rw [hupdates] at hincreasing
        have hlater := (List.pairwise_append.mp hincreasing).2.2 u hu update (List.mem_singleton_self _)
        exact fun heq => hlater.ne (of_decide_eq_true heq)
      rw [hupdates, List.filter_append, hbefore]
      simp [StatusUpdate.row]
    · rw [← hstatus, hupdates, lastStatus]
      simp

/-- However the transactions are interleaved, and wherever they fail, the tables agree on every order. -/
theorem committed_tables_agree {steps : List PgStep} (hrun : empty.run pg steps = some s) :
    ∀ row ∈ s.orders, s.Agrees pg row := by
  intro row hrow
  exact ((inv_run (inv_empty pg) hrun).told row.id).agrees hrow

/-- An order of two lines. -/
def tradedOrder : Order :=
  { id := "00000000-0000-4000-8000-00000000000a", customerId := "customer", businessId := none,
    lines := [⟨"sku", 1, "w1"⟩, ⟨"sku", 2, "w2"⟩], amountCents := 100, status := .CREATED, history := [],
    createdAt := 1 }

/-- Two clients create the order and one succeeds; then both update it, one after the other has failed with
an id drawn. -/
def tradedSteps : List PgStep :=
  [.call 0 (.create tradedOrder), .call 1 (.create tradedOrder), .statement 0 0, .statement 0 0, .fail 0,
    .statement 1 0, .call 0 (.updateStatus tradedOrder.id .CANCELLED ⟨.cancelled, 2, {}⟩), .statement 1 0,
    .statement 1 0, .commit 1,
    .call 1 (.updateStatus tradedOrder.id .INVENTORY_RESERVED ⟨.inventoryReserved, 3, {}⟩),
    .statement 0 0, .statement 0 0, .fail 0, .statement 1 0, .statement 1 5, .commit 1]

theorem tradedOrder_agrees : ∃ s, empty.run .plain tradedSteps = some s ∧
    s.order_events.map OrderEventRow.id = [7] ∧ ∀ row ∈ s.orders, s.Agrees .plain row := by
  have hends :
      ((empty.run .plain tradedSteps).map fun s => s.order_events.map OrderEventRow.id) = some [7] := by
    decide +kernel
  obtain ⟨s, hrun, hids⟩ := Option.map_eq_some_iff.mp hends
  exact ⟨s, hrun, hids, committed_tables_agree hrun⟩

end PgServer

end SupplyChain
