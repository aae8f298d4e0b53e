import SupplyChain.Orders.Proofs.IsolationProofs

/-!
# Proofs: both stores show the same orders in every scope

As long as the tables accept every operation, they hold a row for each order in memory, with its lines
and its events.
-/

namespace SupplyChain

open Collections

namespace Tables

variable {pg : Postgres} {t t' : Tables pg} {id u : OrderId} {order o : Order} {status : OrderStatus}
  {event : OrderEvent}

theorem inScope_some {b : Option String} (hb : pg.uuidOrNull b = some b) :
    inScope pg (some b) = some fun r => decide (r.business_id = b) := by
  rw [inScope, hb]
  rfl

theorem head_row_iff {visible : OrderRow → Bool} {r : OrderRow} :
    (t.orders.filter fun r => r.id = u && visible r).head? = some r ↔
      r ∈ t.orders ∧ r.id = u ∧ visible r = true := by
  have hmem : ∀ r, r ∈ t.orders.filter (fun r => r.id = u && visible r) ↔
      r ∈ t.orders ∧ r.id = u ∧ visible r = true := by
    intro r
    rw [List.mem_filter, Bool.and_eq_true, decide_eq_true_eq]
  rw [← hmem]
  constructor
  · exact List.mem_of_head?
  · intro hr
    cases hhead : (t.orders.filter fun r => r.id = u && visible r).head? with
    | none =>
      rw [List.head?_eq_none_iff.mp hhead] at hr
      cases hr
    | some r' =>
      have hr' := List.mem_of_head? hhead
      rw [hmem] at hr hr'
      rw [row_ext hr'.1 hr.1 (hr'.2.1.trans hr.2.1.symm)]

/-- What `get` finds. -/
theorem get_some_iff (ro : RowOrder) {scope : Scope} {visible : OrderRow → Bool}
    (hu : pg.uuid id = some u) (hscope : inScope pg scope = some visible) :
    t.get ro id scope = some (some o) ↔ ∃ r ∈ t.orders, r.id = u ∧ visible r = true ∧
      r.toOrder (t.linesOf ro [u] id) (t.historyOf [u] id) = o := by
  rw [get_eq ro scope hu, hscope, Option.map_some, Option.some.injEq, Option.map_eq_some_iff]
  simp only [head_row_iff, and_assoc]

/-- The order of a row, with all that there is for it. -/
def hydrated (t : Tables pg) (r : OrderRow) : Order := r.toOrder (t.ownLines r.id) (t.recorded r.id)

theorem same_hydrated (ro : RowOrder) {us : List OrderId} {r : OrderRow} (hr : r.id ∈ us) :
    StoreOp.Same (t.hydrated r) (r.toOrder (t.linesOf ro us r.id) (t.historyOf us r.id)) := by
  refine ⟨rfl, (linesOf_perm ro hr).symm, ?_⟩
  show (t.recorded r.id).Perm (t.historyOf us r.id)
  rw [historyOf_eq hr]
  exact (List.perm_insertionSort _ _).symm

theorem Inserted.ownLines (h : t.Inserted order t') (x : OrderId) :
    t'.ownLines x = t.ownLines x ++ if x = order.id then order.lines else [] := by
  rw [Tables.ownLines, h.lines, List.filter_append, List.map_append]
  congr 1
  by_cases hx : x = order.id
  · have hall : (order.lines.map (OrderLine.row order.id)).filter (fun r => r.order_id = x) =
        order.lines.map (OrderLine.row order.id) := by
      refine List.filter_eq_self.mpr fun l hl => ?_
      simp [OrderLine.order_id_of_mem hl, hx]
    rw [if_pos hx, hall, map_back_row]
  · have hnone : (order.lines.map (OrderLine.row order.id)).filter (fun r => r.order_id = x) = [] := by
      refine List.filter_eq_nil_iff.mpr fun l hl => ?_
      simp [OrderLine.order_id_of_mem hl, Ne.symm hx]
    rw [if_neg hx, hnone]
    rfl

theorem Inserted.hydrated_old (h : t.Inserted order t') {r : OrderRow} (hr : r.id ≠ order.id) :
    t'.hydrated r = t.hydrated r := by
  rw [hydrated, hydrated, h.ownLines, h.recorded, if_neg hr, List.append_nil]

theorem Inserted.hydrated_new (h : t.Inserted order t') (hnew : order.id ∉ t.ids)
    (hhistory : order.history = []) : t'.hydrated (order.row order.id order.businessId) = order := by
  have hlines : t'.ownLines order.id = order.lines := by
    rw [h.ownLines, ownLines_of_not_mem hnew, if_pos rfl]
    rfl
  have hevents : t'.recorded order.id = order.history := by
    rw [h.recorded, recorded_of_not_mem hnew, hhistory]
  show (order.row order.id order.businessId).toOrder (t'.ownLines order.id) (t'.recorded order.id) = order
  rw [hlines, hevents]
  rfl

theorem Updated.hydrated (h : t.Updated id status event t') (r : OrderRow) :
    t'.hydrated (OrderRow.update id status r) =
      if r.id = id then { t.hydrated r with status, history := (t.hydrated r).history ++ [event] }
      else t.hydrated r := by
  have hlines : ∀ x, t'.ownLines x = t.ownLines x := by
    intro x
    rw [Tables.ownLines, h.lines]
    rfl
  rw [Tables.hydrated, OrderRow.update_id, hlines, h.recorded, OrderRow.update]
  split
  · rfl
  · rw [List.append_nil]
    rfl

end Tables

namespace StoreOp

variable {pg : Postgres} {ops before : List StoreOp} {op : StoreOp} {order o : Order} {id : OrderId}
  {status : OrderStatus} {event : OrderEvent} {b : Option String} {s : OrderStore} {t : Tables pg}

/-- The tables hold a row for each order in memory. -/
def Agree (s : OrderStore) (t : Tables pg) : Prop :=
  s.orders.entries = t.orders.map fun r => (r.id, t.hydrated r)

namespace Agree

theorem get_iff (h : Agree s t) : s.get id = some o ↔ ∃ r ∈ t.orders, r.id = id ∧ t.hydrated r = o := by
  rw [OrderStore.get, ← InsertionMap.mem_entries_iff, h, List.mem_map]
  simp only [Prod.mk.injEq]

theorem isSome_iff (h : Agree s t) : (s.get id).isSome = true ↔ id ∈ t.ids := by
  rw [Option.isSome_iff_exists, Tables.ids, List.mem_map]
  constructor
  · rintro ⟨o, ho⟩
    obtain ⟨r, hr, hid, -⟩ := h.get_iff.mp ho
    exact ⟨r, hr, hid⟩
  · rintro ⟨r, hr, hid⟩
    exact ⟨t.hydrated r, h.get_iff.mpr ⟨r, hr, hid, rfl⟩⟩

theorem create (h : Agree s t) (hu : pg.uuid order.id = some order.id)
    (hb : pg.uuidOrNull order.businessId = some order.businessId) (hhistory : order.history = [])
    (hnew : order.id ∉ t.ids) (hmeets : MeetsConstraints pg order) :
    Agree (s.perform (.create order)) (t.perform (.create order)) := by
  have hins := Tables.perform_create hu hb hnew hmeets
  have hnone : s.get order.id = none := by
    rw [← Option.not_isSome_iff_eq_none, h.isSome_iff]
    exact hnew
  have hentries : (s.create order).orders.entries = s.orders.entries ++ [(order.id, order)] :=
    InsertionMap.entries_set_new hnone order
  rw [Agree, OrderStore.perform, hentries, hins.orders, List.map_append, h]
  congr 1
  · refine List.map_congr_left fun r hr => ?_
    have hne : r.id ≠ order.id := fun heq => hnew (heq ▸ List.mem_map_of_mem hr)
    rw [hins.hydrated_old hne]
  · rw [List.map_singleton, hins.hydrated_new hnew hhistory]
    rfl

theorem update (h : Agree s t) (hmem : id ∈ t.ids) (hstorable : event.detail.storable = true) :
    Agree (s.perform (.updateStatus id status event)) (t.perform (.updateStatus id status event)) := by
  have hup := Tables.perform_update status hmem hstorable
  obtain ⟨o, ho⟩ := Option.isSome_iff_exists.mp (h.isSome_iff.mpr hmem)
  rw [Agree, Restricts.entries_update ho, hup.orders, List.map_map, h, List.map_map]
  refine List.map_congr_left fun r hr => ?_
  rw [Function.comp_apply, Function.comp_apply, hup.hydrated, OrderRow.update_id]
  by_cases hid : r.id = id
  · have hsame : t.hydrated r = o := by
      have hget := h.get_iff.mpr ⟨r, hr, hid, rfl⟩
      exact Option.some.inj (hget.symm.trans ho)
    rw [if_pos hid, if_pos hid, hsame, hid]
  · rw [if_neg hid, if_neg hid]

end Agree

/-- Stores that agree show the same orders. -/
theorem Agree.shown (h : Agree s t) (hb : pg.uuidOrNull b = some b) (ro : RowOrder) :
    (∀ id, pg.uuid id = some id → ∃ o, t.get ro id (some b) = some o ∧
      Option.Rel Same (s.getIn id (some b)) o) ∧
    ∃ orders orders', t.all ro (some b) = some orders ∧
      (s.allIn (some b)).Perm orders' ∧ List.Forall₂ Same orders' orders := by
  have hscope := Tables.inScope_some hb
  constructor
  · intro id hu
    have hfound : ∀ r ∈ t.orders, r.id = id → r.business_id = b →
        s.getIn id (some b) = some (t.hydrated r) := by
      intro r hr hid hown
      exact OrderStore.getIn_iff.mpr ⟨h.get_iff.mpr ⟨r, hr, hid, rfl⟩, hown⟩
    obtain ⟨o, ho⟩ : ∃ o, t.get ro id (some b) = some o := by
      rw [Tables.get_eq ro _ hu, hscope]
      exact ⟨_, rfl⟩
    refine ⟨o, ho, ?_⟩
    cases o with
    | some o =>
      obtain ⟨r, hr, hid, hown, rfl⟩ := (Tables.get_some_iff ro hu hscope).mp ho
      rw [hfound r hr hid (of_decide_eq_true hown)]
      subst hid
      exact .some (Tables.same_hydrated ro (List.mem_singleton.mpr rfl))
    | none =>
      cases hs : s.getIn id (some b) with
      | none => exact .none
      | some o' =>
        obtain ⟨hget, hown⟩ := OrderStore.getIn_iff.mp hs
        obtain ⟨r, hr, hid, rfl⟩ := h.get_iff.mp hget
        have hrow := (Tables.get_some_iff ro hu hscope).mpr ⟨r, hr, hid, decide_eq_true hown, rfl⟩
        cases ho.symm.trans hrow
  · let rows := Tables.byCreation ro (t.orders.filter fun r => r.business_id = b)
    refine ⟨_, rows.map t.hydrated, by rw [Tables.all_eq, hscope]; rfl, ?_, ?_⟩
    · have hown : s.allIn (some b) = (t.orders.filter fun r => r.business_id = b).map t.hydrated := by
        rw [OrderStore.allIn, InsertionMap.values, h, List.map_map, List.filter_map]
        rfl
      rw [hown]
      have hperm := (List.perm_insertionSort (fun r r' : OrderRow => r.created_at ≤ r'.created_at)
        (ro.orders (t.orders.filter fun r => r.business_id = b))).trans (ro.orders_perm _)
      exact (hperm.map t.hydrated).symm
    · rw [List.forall₂_map_left_iff, List.forall₂_map_right_iff, List.forall₂_same]
      intro r hr
      exact Tables.same_hydrated ro (List.mem_map_of_mem hr)

/-- An operation that the tables accept keeps the stores in agreement. -/
theorem Agree.step (hfresh : Fresh ops) (hc : Canonical pg ops) (hp : before ++ [op] <+: ops)
    (h : Agree (memory before) (tables pg before)) (haccepted : Accepted pg (memory before) op) :
    Agree (memory (before ++ [op])) (tables pg (before ++ [op])) := by
  rw [memory_append, tables_append]
  cases op with
  | create order =>
    have hin := mem_created hp
    exact h.create (hc.uuid order hin) (hc.business order hin) (hc.history order hin)
      (tables_fresh hfresh hc hp) haccepted
  | updateStatus id status event =>
    by_cases hmem : id ∈ (tables pg before).ids
    · exact h.update hmem (haccepted (h.isSome_iff.mpr hmem))
    · have hnone : (memory before).get id = none := by
        rw [← Option.not_isSome_iff_eq_none, h.isSome_iff]
        exact hmem
      rw [hc.update_rejected (mem_of_step hp) hmem, Restricts.update_none hnone]
      exact h

/-- An order in memory is shown by the tables too, with as many events. -/
theorem ShownAlike.row (h : ShownAlike pg before) (hk : pg.uuid id = some id ∧
    pg.uuidOrNull o.businessId = some o.businessId) (ho : (memory before).get id = some o) :
    id ∈ (tables pg before).ids ∧ ((tables pg before).recorded id).length = o.history.length := by
  obtain ⟨o₁, hget, hrel⟩ := (h o.businessId hk.2 .inserted).1 id hk.1
  rw [OrderStore.getIn_iff.mpr ⟨ho, rfl⟩] at hrel
  cases hrel with
  | some hsame =>
    obtain ⟨r, hr, hid, -, rfl⟩ :=
      (Tables.get_some_iff .inserted hk.1 (Tables.inScope_some hk.2)).mp hget
    refine ⟨List.mem_map.mpr ⟨r, hr, hid⟩, ?_⟩
    have hlength := hsame.2.2.length_eq
    rw [hlength]
    show _ = ((tables pg before).historyOf [id] id).length
    rw [Tables.historyOf_eq (List.mem_singleton.mpr rfl), List.length_insertionSort]

/-- An operation that only one of the stores accepts shows. -/
theorem accepted_of_shown (hfresh : Fresh ops) (hc : Canonical pg ops) (hp : before ++ [op] <+: ops)
    (h : Agree (memory before) (tables pg before)) (hshown : ShownAlike pg (before ++ [op])) :
    Accepted pg (memory before) op := by
  cases op with
  | create order =>
    have hin := mem_created hp
    have hnew := tables_fresh hfresh hc hp
    have hstored : (memory (before ++ [.create order])).get order.id = some order := by
      rw [memory_append, OrderStore.perform, OrderStore.create, OrderStore.get_put, if_pos rfl]
    obtain ⟨hmem, -⟩ := hshown.row ⟨hc.uuid order hin, hc.business order hin⟩ hstored
    by_contra hnot
    rw [tables_append, Tables.perform_create_rejected (hc.uuid order hin)
      (hc.business order hin) hnew hnot] at hmem
    exact hnew hmem
  | updateStatus id status event =>
    intro hsome
    obtain ⟨o, ho⟩ := Option.isSome_iff_exists.mp hsome
    obtain ⟨store, hupdate, -, hget⟩ := OrderStore.updateStatus_of_get ho status event
    have hstored : (memory (before ++ [.updateStatus id status event])).get id =
        some { o with status, history := o.history ++ [event] } := by
      rw [memory_append, OrderStore.perform, hupdate, Option.getD_some, hget, if_pos rfl]
    have hk := hc.known ((List.prefix_append _ _).trans hp) (memory_known before ho)
    have hlength := (hshown.row (o := { o with status, history := o.history ++ [event] }) hk hstored).2
    obtain ⟨r, -, rfl, rfl⟩ := h.get_iff.mp ho
    by_contra hnot
    rw [tables_append, Tables.perform_update_unstorable _ _ _ hnot, List.length_append] at hlength
    -- memory has one event more
    have hless : ((tables pg before).recorded r.id).length + 1 =
        ((tables pg before).recorded r.id).length := hlength.symm
    omega

theorem memory_inOneScope (ops : List StoreOp) : MemoryInOneScope ops := by
  intro id order horder
  refine ⟨order.businessId, fun b' => ?_⟩
  rw [OrderStore.getIn_iff]
  exact ⟨fun hown => hown.2.symm, fun heq => ⟨horder, heq.symm⟩⟩

/-- A row is shown in the scope of its business. -/
theorem tables_inOneScope (hc : Canonical pg ops) : TablesInOneScope pg ops := by
  intro ro id order horder
  cases hu : pg.uuid id with
  | none =>
    rw [Tables.get_of_uuid_none ro none hu] at horder
    cases horder
  | some u =>
    obtain ⟨r, hr, hid, -, rfl⟩ := (Tables.get_some_iff ro hu rfl).mp horder
    have hk := tables_known hc ops List.prefix_rfl r hr
    refine ⟨r.business_id, (hc.known List.prefix_rfl hk).2, fun b' hb' => ?_⟩
    rw [Tables.get_some_iff ro hu (Tables.inScope_some hb')]
    constructor
    · rintro ⟨r', hr', hid', hown, -⟩
      rw [← Tables.row_ext hr' hr (hid'.trans hid.symm)]
      exact (of_decide_eq_true hown).symm
    · intro heq
      exact ⟨r, hr, hid, decide_eq_true heq.symm, rfl⟩

/-- The stores show the same orders after each operation exactly as long as the tables accept each. -/
theorem shown_iff (hfresh : Fresh ops) (hc : Canonical pg ops) :
    (∀ before, before <+: ops → ShownAlike pg before) ↔
    ∀ before op, before ++ [op] <+: ops → Accepted pg (memory before) op := by
  constructor
  · intro hshown
    have hagree : ∀ before, before <+: ops → Agree (memory before) (tables pg before) := by
      refine prefix_induction rfl fun before op hp h => ?_
      exact h.step hfresh hc hp (accepted_of_shown hfresh hc hp h (hshown _ hp))
    intro before op hp
    have hbefore : before <+: ops := (List.prefix_append _ _).trans hp
    exact accepted_of_shown hfresh hc hp (hagree before hbefore) (hshown _ hp)
  · intro haccepted
    have hagree : ∀ before, before <+: ops → Agree (memory before) (tables pg before) := by
      refine prefix_induction rfl fun before op hp h => ?_
      exact h.step hfresh hc hp (haccepted before op hp)
    intro before hp b hb ro
    exact (hagree before hp).shown hb ro

/-- A business sees its own orders, whatever the others do, and each order is in one scope. Both stores
show the same as long as the tables accept each operation. -/
theorem tenants_isolated (pg : Postgres) (hfresh : Fresh ops) :
    MemoryIsolated ops ∧ MemoryInOneScope ops ∧
      (Canonical pg ops → TablesIsolated pg ops ∧ TablesInOneScope pg ops ∧
        ((∀ before, before <+: ops → ShownAlike pg before) ↔
          ∀ before op, before ++ [op] <+: ops → Accepted pg (memory before) op)) :=
  ⟨memoryIsolated_of_fresh hfresh, memory_inOneScope ops, fun hc =>
    ⟨tablesIsolated_of_canonical hfresh hc, tables_inOneScope hc, shown_iff hfresh hc⟩⟩

/-- An order of one business and one of nobody. -/
def twoTenants : List StoreOp :=
  [.create (newOrder "00000000-0000-4000-8000-00000000000a" "alice" [⟨"sku", 1, "w1"⟩] 100
      (some "00000000-0000-4000-8000-0000000000b1") 1),
    .create (newOrder "00000000-0000-4000-8000-00000000000c" "bob" [⟨"sku", 2, "w1"⟩] 200 none 2)]

theorem twoTenants_canonical : Canonical .plain twoTenants := by
  refine ⟨by decide +kernel, by decide +kernel, by decide +kernel, fun id status event hin => ?_⟩
  simp [twoTenants] at hin

theorem twoTenants_isolated : Fresh twoTenants ∧ TablesIsolated .plain twoTenants ∧
    ((∀ before, before <+: twoTenants → ShownAlike .plain before) ↔
      ∀ before op, before ++ [op] <+: twoTenants → Accepted .plain (memory before) op) := by
  have hfresh : Fresh twoTenants := by
    unfold Fresh
    decide +kernel
  obtain ⟨-, -, htables⟩ := tenants_isolated .plain hfresh
  obtain ⟨hisolated, -, hshown⟩ := htables twoTenants_canonical
  exact ⟨hfresh, hisolated, hshown⟩

/-- Postgres rejects two lines for the same item, and memory does not. -/
theorem sameItemTwice_hidden : ¬ ∀ (pg : Postgres) (ops : List StoreOp), Fresh ops →
    Canonical pg ops → ShownAlike pg ops := by
  intro hall
  let ops := [create (sameItemTwice.order "00000000-0000-4000-8000-00000000000a" none 1)]
  have hfresh : Fresh ops := by
    unfold Fresh
    decide +kernel
  have hc : Canonical .plain ops := by
    refine ⟨by decide +kernel, by decide +kernel, by decide +kernel, fun id status event hin => ?_⟩
    simp [ops] at hin
  obtain ⟨o, hget, hrel⟩ := ((hall .plain ops hfresh hc) none rfl .inserted).1
    "00000000-0000-4000-8000-00000000000a" (by decide +kernel)
  have hmissing : ((tables .plain ops).get .inserted "00000000-0000-4000-8000-00000000000a"
      (some none)).map Option.isNone = some true := by
    decide +kernel
  have hstored : ((memory ops).getIn "00000000-0000-4000-8000-00000000000a" (some none)).isSome = true := by
    decide +kernel
  rw [hget, Option.map_some, Option.some.injEq, Option.isNone_iff_eq_none] at hmissing
  rw [hmissing] at hrel
  cases hs : (memory ops).getIn "00000000-0000-4000-8000-00000000000a" (some none) with
  | none =>
    rw [hs] at hstored
    cases hstored
  | some order =>
    rw [hs] at hrel
    cases hrel

end StoreOp

end SupplyChain
