import SupplyChain.Orders.Proofs.OrderStoreProofs
import SupplyChain.Orders.Proofs.OrderTablesProofs

/-!
# Proofs: what other businesses do makes no difference

After the operations on the orders of one business alone, a store holds exactly what it holds for that
business after all operations.
-/

namespace SupplyChain

open Collections

/-- What holds at first, and is kept by each element in turn, holds of each prefix. -/
theorem prefix_induction {α : Type} {l : List α} {P : List α → Prop} (hnil : P [])
    (hstep : ∀ before a, before ++ [a] <+: l → P before → P (before ++ [a])) :
    ∀ before, before <+: l → P before := by
  intro before
  induction before using List.reverseRecOn with
  | nil => exact fun _ => hnil
  | append_singleton before a ih =>
    intro hp
    exact hstep before a hp (ih ((List.prefix_append _ _).trans hp))

theorem OrderRow.business_update (id : OrderId) (status : OrderStatus) (r : OrderRow) :
    (update id status r).business_id = r.business_id := by
  unfold update
  split <;> rfl

theorem OrderStore.getIn_iff {s : OrderStore} {id : OrderId} {b : Option String} {o : Order} :
    s.getIn id (some b) = some o ↔ s.get id = some o ∧ o.businessId = b := by
  rw [getIn, Option.filter_eq_some_iff, visible, decide_eq_true_eq]

namespace StoreOp

variable {pg : Postgres} {ops before : List StoreOp} {op : StoreOp} {order : Order} {id : OrderId}
  {status : OrderStatus} {event : OrderEvent} {b : Option String}

theorem memory_append (ops : List StoreOp) (op : StoreOp) :
    memory (ops ++ [op]) = (memory ops).perform op := by
  rw [memory, List.foldl_append]
  rfl

theorem tables_append (ops : List StoreOp) (op : StoreOp) :
    tables pg (ops ++ [op]) = (tables pg ops).perform op := by
  rw [tables, List.foldl_append]
  rfl

/-! ## The orders that are created -/

theorem created_append (ops ops' : List StoreOp) :
    created (ops ++ ops') = created ops ++ created ops' := by
  induction ops with
  | nil => rfl
  | cons op ops ih =>
    cases op with
    | create order => exact congrArg (order :: ·) ih
    | updateStatus id status event => exact ih

theorem created_initial (h : before <+: ops) : created before <+: created ops := by
  obtain ⟨after, rfl⟩ := h
  rw [created_append]
  exact List.prefix_append _ _

/-- An order with this id was created for this business. -/
def Known (before : List StoreOp) (id : OrderId) (businessId : Option String) : Prop :=
  ∃ order ∈ created before, order.id = id ∧ order.businessId = businessId

theorem Known.append (h : Known before id b) (ops' : List StoreOp) : Known (before ++ ops') id b := by
  obtain ⟨order, ho, hid, hb⟩ := h
  refine ⟨order, ?_, hid, hb⟩
  rw [created_append]
  exact List.mem_append_left _ ho

theorem known_create (before : List StoreOp) (order : Order) :
    Known (before ++ [create order]) order.id order.businessId := by
  refine ⟨order, ?_, rfl, rfl⟩
  rw [created_append]
  exact List.mem_append_right _ (List.mem_singleton.mpr rfl)

theorem mem_of_step (hp : before ++ [op] <+: ops) : op ∈ ops :=
  hp.subset (List.mem_append_right _ (List.mem_singleton.mpr rfl))

theorem mem_created (hp : before ++ [create order] <+: ops) : order ∈ created ops := by
  refine (created_initial hp).subset ?_
  rw [created_append]
  exact List.mem_append_right _ (List.mem_singleton.mpr rfl)

/-- An order that is created was not created before. -/
theorem Fresh.unknown (h : Fresh ops) (hp : before ++ [create order] <+: ops) :
    ¬ Known before order.id b := by
  rintro ⟨order', ho, hid, -⟩
  have hids := List.Nodup.sublist ((created_initial hp).sublist.map Order.id) h
  rw [created_append, List.map_append, List.nodup_append] at hids
  exact hids.2.2 _ (List.mem_map_of_mem ho) _ (List.mem_singleton.mpr rfl) hid

theorem Fresh.owner (h : Fresh ops) (hp : before <+: ops) (hk : Known before id b) :
    owner ops id = some b := by
  obtain ⟨order, ho, rfl, rfl⟩ := hk
  have hin := (created_initial hp).subset ho
  rw [StoreOp.owner]
  cases hf : (created ops).find? fun o => o.id = order.id with
  | none => simpa using List.find?_eq_none.mp hf order hin
  | some o =>
    have hid : o.id = order.id := by simpa using List.find?_some hf
    rw [List.inj_on_of_nodup_map h (List.mem_of_find?_eq_some hf) hin hid]
    rfl

theorem Canonical.known (h : Canonical pg ops) (hp : before <+: ops) (hk : Known before id b) :
    pg.uuid id = some id ∧ pg.uuidOrNull b = some b := by
  obtain ⟨order, ho, rfl, rfl⟩ := hk
  have hin := (created_initial hp).subset ho
  exact ⟨h.uuid order hin, h.business order hin⟩

theorem Canonical.update_rejected (h : Canonical pg ops)
    (hin : updateStatus id status event ∈ ops) {t : Tables pg} (hnone : id ∉ t.ids) :
    t.perform (updateStatus id status event) = t := by
  refine Tables.perform_update_rejected ?_
  rintro ⟨u, hu, hmem, -⟩
  apply hnone
  rcases h.update id status event hin with hbad | hid
  · cases hu.symm.trans hbad
  · rwa [← Option.some.inj (hid.symm.trans hu)] at hmem

/-- Every order in memory was created. -/
theorem memory_known (before : List StoreOp) : ∀ {id : OrderId} {o : Order},
    (memory before).get id = some o → Known before id o.businessId := by
  induction before using List.reverseRecOn with
  | nil =>
    intro id o ho
    cases ho
  | append_singleton before op ih =>
    intro x o ho
    rw [memory_append] at ho
    cases op with
    | create order =>
      rw [OrderStore.perform, OrderStore.create, OrderStore.get_put] at ho
      split at ho
      · rename_i hx
        rw [hx, ← Option.some.inj ho]
        exact known_create before order
      · exact (ih ho).append _
    | updateStatus id status event =>
      rw [OrderStore.perform] at ho
      cases hs : (memory before).get id with
      | none =>
        rw [OrderStore.updateStatus, hs] at ho
        exact (ih ho).append _
      | some o' =>
        obtain ⟨s, hs', -, hget⟩ := OrderStore.updateStatus_of_get hs status event
        rw [hs', Option.getD_some, hget] at ho
        split at ho
        · rename_i hx
          rw [← Option.some.inj ho, hx]
          exact (ih hs).append _
        · exact (ih ho).append _

theorem memory_get_none (hfresh : Fresh ops) (hp : before ++ [create order] <+: ops) :
    (memory before).get order.id = none := by
  cases hs : (memory before).get order.id with
  | none => rfl
  | some o => exact absurd (memory_known before hs) (hfresh.unknown hp)

/-- Every row was created. -/
theorem tables_known (hc : Canonical pg ops) : ∀ before, before <+: ops →
    ∀ r ∈ (tables pg before).orders, Known before r.id r.business_id := by
  refine prefix_induction (fun r hr => absurd hr List.not_mem_nil) fun before op hp ih r hr => ?_
  rw [tables_append] at hr
  cases op with
  | create order =>
    rw [Tables.perform] at hr
    cases ht : (tables pg before).create order with
    | none =>
      rw [ht] at hr
      exact (ih r hr).append _
    | some t' =>
      obtain ⟨b', hb', u, hu, -, horders, -⟩ := Tables.create_spec ht
      rw [ht, Option.getD_some, horders] at hr
      rcases List.mem_append.mp hr with hold | hnew
      · exact (ih r hold).append _
      · have hin := mem_created hp
        obtain rfl := Option.some.inj ((hc.uuid order hin).symm.trans hu)
        obtain rfl := Option.some.inj ((hc.business order hin).symm.trans hb')
        rw [List.mem_singleton.mp hnew]
        exact known_create before order
  | updateStatus id status event =>
    rw [Tables.perform] at hr
    cases ht : (tables pg before).updateStatus id status event with
    | none =>
      rw [ht] at hr
      exact (ih r hr).append _
    | some t' =>
      obtain ⟨u, -, -, -, horders, -⟩ := Tables.updateStatus_spec ht
      rw [ht, Option.getD_some, horders] at hr
      obtain ⟨r', hr', rfl⟩ := List.mem_map.mp hr
      rw [OrderRow.update_id, OrderRow.business_update]
      exact (ih r' hr').append _

theorem tables_fresh (hfresh : Fresh ops) (hc : Canonical pg ops) (hp : before ++ [create order] <+: ops) :
    order.id ∉ (tables pg before).ids := by
  intro hmem
  obtain ⟨r, hr, hid⟩ := List.mem_map.mp hmem
  have hk := tables_known hc before ((List.prefix_append _ _).trans hp) r hr
  rw [hid] at hk
  exact hfresh.unknown hp hk

/-! ## In memory -/

/-- The operations so far on the orders of the business `b`. -/
def ownedSoFar (ops : List StoreOp) (b : Option String) (before : List StoreOp) : List StoreOp :=
  before.filter (concerns (owner ops) b)

theorem ownedSoFar_append (ops : List StoreOp) (b : Option String) (before : List StoreOp)
    (op : StoreOp) : ownedSoFar ops b (before ++ [op]) =
      if concerns (owner ops) b op then ownedSoFar ops b before ++ [op] else ownedSoFar ops b before := by
  rw [ownedSoFar, List.filter_append, List.filter_singleton]
  cases concerns (owner ops) b op with
  | true => rfl
  | false => exact List.append_nil _

/-- The second store holds what the first holds for the business `b`. -/
def Restricts (b : Option String) (s s' : OrderStore) : Prop :=
  s'.orders.entries = s.orders.entries.filter fun e => e.2.businessId = b

namespace Restricts

variable {s s' : OrderStore} {o : Order}

theorem get (h : Restricts b s s') : s'.get id = some o ↔ s.get id = some o ∧ o.businessId = b := by
  rw [OrderStore.get, ← InsertionMap.mem_entries_iff, h, List.mem_filter, InsertionMap.mem_entries_iff,
    decide_eq_true_eq]
  rfl

theorem get_none (h : Restricts b s s') (hnone : s.get id = none) : s'.get id = none := by
  cases hs : s'.get id with
  | none => rfl
  | some o => cases hnone.symm.trans (h.get.mp hs).1

theorem create (h : Restricts b s s') (hnone : s.get order.id = none) :
    Restricts b (s.create order) (if order.businessId = b then s'.create order else s') := by
  have hentries : (s.create order).orders.entries = s.orders.entries ++ [(order.id, order)] :=
    InsertionMap.entries_set_new hnone order
  rw [Restricts, hentries, List.filter_append, ← h]
  by_cases hb : order.businessId = b
  · have hentries' : (s'.create order).orders.entries = s'.orders.entries ++ [(order.id, order)] :=
      InsertionMap.entries_set_new (h.get_none hnone) order
    rw [if_pos hb, hentries']
    simp [hb]
  · rw [if_neg hb]
    simp [hb]

theorem update_none (hnone : s.get id = none) : s.perform (updateStatus id status event) = s := by
  rw [OrderStore.perform, OrderStore.updateStatus, hnone]
  rfl

theorem entries_update (hs : s.get id = some o) :
    (s.perform (updateStatus id status event)).orders.entries = s.orders.entries.map fun e =>
      if e.1 = id then (id, { o with status, history := o.history ++ [event] }) else e := by
  rw [OrderStore.perform, OrderStore.updateStatus, hs]
  show (s.orders.set o.id _).entries = _
  rw [OrderStore.id_of_get hs]
  exact InsertionMap.entries_set_of_get hs _

theorem update (h : Restricts b s s') (hs : s.get id = some o) :
    Restricts b (s.perform (updateStatus id status event))
      (if o.businessId = b then s'.perform (updateStatus id status event) else s') := by
  have hentry : ∀ e ∈ s.orders.entries, e.1 = id → e.2 = o := by
    rintro ⟨k, v⟩ he rfl
    exact Option.some.inj ((InsertionMap.mem_entries_iff.mp he).symm.trans hs)
  have hkeep : s.orders.entries.filter ((fun e => decide (e.2.businessId = b)) ∘ fun e =>
      if e.1 = id then (id, { o with status, history := o.history ++ [event] }) else e) =
        s'.orders.entries := by
    rw [h]
    refine List.filter_congr fun e he => ?_
    rw [Function.comp_apply]
    split
    · rename_i hkey
      rw [hentry e he hkey]
    · rfl
  rw [Restricts, entries_update hs, List.filter_map, hkeep]
  by_cases hb : o.businessId = b
  · rw [if_pos hb, entries_update (h.get.mpr ⟨hs, hb⟩)]
  · rw [if_neg hb]
    have hother : ∀ e ∈ s'.orders.entries,
        (if e.1 = id then (id, { o with status, history := o.history ++ [event] }) else e) = e := by
      intro e he
      rw [h, List.mem_filter] at he
      refine if_neg fun hkey => hb ?_
      rw [← hentry e he.1 hkey]
      exact of_decide_eq_true he.2
    rw [List.map_congr_left hother, List.map_id']

theorem getIn (h : Restricts b s s') (id : OrderId) : s.getIn id (some b) = s'.getIn id (some b) := by
  ext o
  rw [OrderStore.getIn_iff, OrderStore.getIn_iff, h.get, and_assoc, and_self]

theorem allIn (h : Restricts b s s') : s.allIn (some b) = s'.allIn (some b) := by
  rw [OrderStore.allIn, OrderStore.allIn, InsertionMap.values, InsertionMap.values, h, List.filter_map,
    List.filter_map, List.filter_filter]
  congr 1
  refine List.filter_congr fun e _ => ?_
  rw [Function.comp_apply, OrderStore.visible, Bool.and_self]

end Restricts

/-- The operations of the others make no difference in memory. -/
theorem memory_restricts (hfresh : Fresh ops) (b : Option String) : ∀ before, before <+: ops →
    Restricts b (memory before) (memory (ownedSoFar ops b before)) := by
  refine prefix_induction rfl fun before op hp h => ?_
  rw [memory_append, ownedSoFar_append, apply_ite memory, memory_append]
  cases op with
  | create order => simpa [concerns, OrderStore.perform] using h.create (memory_get_none hfresh hp)
  | updateStatus id status event =>
    cases hs : (memory before).get id with
    | none => rwa [Restricts.update_none hs, Restricts.update_none (h.get_none hs), ite_self]
    | some o =>
      have howner := hfresh.owner ((List.prefix_append _ _).trans hp) (memory_known before hs)
      simpa [concerns, howner] using h.update hs

/-! ## In Postgres -/

/-- The second tables hold what the first hold for the business `b`. -/
structure TablesRestrict (b : Option String) (t t' : Tables pg) : Prop where
  orders : t'.orders = t.orders.filter fun r => r.business_id = b
  lines : t'.order_lines = t.order_lines.filter fun l => l.order_id ∈ t'.ids
  recorded : ∀ id ∈ t'.ids, t'.recorded id = t.recorded id

namespace TablesRestrict

variable {t t' : Tables pg}

theorem mem_ids (h : TablesRestrict b t t') (hid : id ∈ t'.ids) : id ∈ t.ids := by
  rw [Tables.ids, h.orders] at hid
  exact (List.filter_sublist.map OrderRow.id).subset hid

theorem create_own (h : TablesRestrict b t t') {t₁ t₁' : Tables pg} (hins : t.Inserted order t₁)
    (hins' : t'.Inserted order t₁') (hnew : order.id ∉ t.ids) (hown : order.businessId = b) :
    TablesRestrict b t₁ t₁' := by
  have hids : t₁'.ids = t'.ids ++ [order.id] := by
    rw [Tables.ids, hins'.orders, List.map_append]
    rfl
  refine ⟨?_, ?_, fun id hid => ?_⟩
  · rw [hins'.orders, hins.orders, List.filter_append, ← h.orders]
    simp [Order.row, hown]
  · rw [hins'.lines, hins.lines, List.filter_append, h.lines, hids]
    congr 1
    · refine List.filter_congr fun l hl => ?_
      have hold : l.order_id ≠ order.id := fun heq => hnew (heq ▸ t.order_lines_order l hl)
      simp [hold]
    · refine (List.filter_eq_self.mpr fun l hl => ?_).symm
      simp [OrderLine.order_id_of_mem hl]
  · rw [hins'.recorded, hins.recorded]
    rw [hids] at hid
    rcases List.mem_append.mp hid with hin | hself
    · exact h.recorded id hin
    · rw [List.mem_singleton.mp hself, Tables.recorded_of_not_mem (mt h.mem_ids hnew),
        Tables.recorded_of_not_mem hnew]

theorem create_other (h : TablesRestrict b t t') {t₁ : Tables pg} (hins : t.Inserted order t₁)
    (hnew : order.id ∉ t.ids) (hother : order.businessId ≠ b) : TablesRestrict b t₁ t' := by
  have hnew' : order.id ∉ t'.ids := mt h.mem_ids hnew
  refine ⟨?_, ?_, fun id hid => ?_⟩
  · rw [hins.orders, List.filter_append, ← h.orders]
    simp [Order.row, hother]
  · have hnone : (order.lines.map (OrderLine.row order.id)).filter (fun l => l.order_id ∈ t'.ids) = [] := by
      refine List.filter_eq_nil_iff.mpr fun l hl => ?_
      simp [OrderLine.order_id_of_mem hl, hnew']
    rw [hins.lines, List.filter_append, ← h.lines, hnone, List.append_nil]
  · rw [hins.recorded]
    exact h.recorded id hid

theorem create (h : TablesRestrict b t t') (hu : pg.uuid order.id = some order.id)
    (hb : pg.uuidOrNull order.businessId = some order.businessId) (hnew : order.id ∉ t.ids) :
    TablesRestrict b (t.perform (create order))
      (if order.businessId = b then t'.perform (create order) else t') := by
  have hnew' : order.id ∉ t'.ids := mt h.mem_ids hnew
  by_cases hmeets : MeetsConstraints pg order
  · have hins := Tables.perform_create hu hb hnew hmeets
    by_cases hown : order.businessId = b
    · rw [if_pos hown]
      exact h.create_own hins (Tables.perform_create hu hb hnew' hmeets) hnew hown
    · rw [if_neg hown]
      exact h.create_other hins hnew hown
  · rw [Tables.perform_create_rejected hu hb hnew hmeets,
      Tables.perform_create_rejected hu hb hnew' hmeets, ite_self]
    exact h

theorem filter_updated (h : TablesRestrict b t t') {t₁ : Tables pg}
    (hup : t.Updated id status event t₁) :
    t₁.orders.filter (fun r => r.business_id = b) = t'.orders.map (OrderRow.update id status) := by
  rw [hup.orders, List.filter_map, h.orders]
  congr 1
  refine List.filter_congr fun r _ => ?_
  rw [Function.comp_apply, OrderRow.business_update]

theorem update_own (h : TablesRestrict b t t') {t₁ t₁' : Tables pg}
    (hup : t.Updated id status event t₁) (hup' : t'.Updated id status event t₁') :
    TablesRestrict b t₁ t₁' := by
  refine ⟨?_, ?_, fun x hx => ?_⟩
  · rw [hup'.orders, h.filter_updated hup]
  · rw [hup'.lines, hup.lines, hup'.ids]
    exact h.lines
  · rw [hup'.ids] at hx
    rw [hup'.recorded, hup.recorded, h.recorded x hx]

theorem update_other (h : TablesRestrict b t t') {t₁ : Tables pg}
    (hup : t.Updated id status event t₁) (hnot : id ∉ t'.ids) : TablesRestrict b t₁ t' := by
  have hother : ∀ r ∈ t'.orders, OrderRow.update id status r = r := by
    intro r hr
    exact if_neg fun heq => hnot (List.mem_map.mpr ⟨r, hr, heq⟩)
  refine ⟨?_, ?_, fun x hx => ?_⟩
  · rw [h.filter_updated hup, List.map_congr_left hother, List.map_id']
  · rw [hup.lines]
    exact h.lines
  · have hne : x ≠ id := fun heq => hnot (heq ▸ hx)
    rw [hup.recorded, if_neg hne, List.append_nil]
    exact h.recorded x hx

theorem update (h : TablesRestrict b t t') {r : OrderRow} (hr : r ∈ t.orders) (hid : r.id = id) :
    TablesRestrict b (t.perform (updateStatus id status event))
      (if r.business_id = b then t'.perform (updateStatus id status event) else t') := by
  have hmem : id ∈ t.ids := List.mem_map.mpr ⟨r, hr, hid⟩
  by_cases hstorable : event.detail.storable = true
  · have hup := Tables.perform_update status hmem hstorable
    by_cases hown : r.business_id = b
    · have hmem' : id ∈ t'.ids := by
        rw [Tables.ids, h.orders]
        exact List.mem_map.mpr ⟨r, List.mem_filter.mpr ⟨hr, decide_eq_true hown⟩, hid⟩
      rw [if_pos hown]
      exact h.update_own hup (Tables.perform_update status hmem' hstorable)
    · have hnot : id ∉ t'.ids := by
        intro hin
        obtain ⟨r', hr', hid'⟩ := List.mem_map.mp hin
        rw [h.orders, List.mem_filter] at hr'
        have hsame : r' = r := Tables.row_ext hr'.1 hr (hid'.trans hid.symm)
        exact hown (hsame ▸ of_decide_eq_true hr'.2)
      rw [if_neg hown]
      exact h.update_other hup hnot
  · rw [Tables.perform_update_unstorable t id status hstorable,
      Tables.perform_update_unstorable t' id status hstorable, ite_self]
    exact h

/-! ## Reads -/

theorem historyOf (h : TablesRestrict b t t') {us : List OrderId} (hus : ∀ u ∈ us, u ∈ t'.ids)
    (id : OrderId) : t'.historyOf us id = t.historyOf us id := by
  by_cases hid : id ∈ us
  · rw [Tables.historyOf_eq hid, Tables.historyOf_eq hid, h.recorded id (hus id hid)]
  · rw [Tables.historyOf_of_not_mem hid, Tables.historyOf_of_not_mem hid]

theorem linesOf (h : TablesRestrict b t t') (ro : RowOrder) {us : List OrderId}
    (hus : ∀ u ∈ us, u ∈ t'.ids) (id : OrderId) : t'.linesOf ro us id = t.linesOf ro us id := by
  have hsame : (t'.order_lines.filter fun r => r.order_id ∈ us) =
      t.order_lines.filter fun r => r.order_id ∈ us := by
    rw [h.lines, List.filter_filter]
    refine List.filter_congr fun l _ => ?_
    by_cases hl : l.order_id ∈ us
    · simp [hl, hus _ hl]
    · simp [hl]
  rw [Tables.linesOf, Tables.linesOf, hsame]

theorem mem_ids_of_visible (h : TablesRestrict b t t') {r : OrderRow}
    (hr : r ∈ t.orders.filter fun r => r.business_id = b) : r.id ∈ t'.ids := by
  rw [← h.orders] at hr
  exact List.mem_map_of_mem hr

theorem visible (h : TablesRestrict b t t') :
    t'.orders.filter (fun r => r.business_id = b) = t.orders.filter fun r => r.business_id = b := by
  rw [h.orders, List.filter_filter]
  simp only [Bool.and_self]

theorem get (h : TablesRestrict b t t') (hb : pg.uuidOrNull b = some b) (ro : RowOrder) (id : OrderId) :
    t.get ro id (some b) = t'.get ro id (some b) := by
  cases hu : pg.uuid id with
  | none => rw [Tables.get_of_uuid_none ro _ hu, Tables.get_of_uuid_none ro _ hu]
  | some u =>
    have hrow : ∀ t : Tables pg, (t.orders.filter fun r => r.id = u && decide (r.business_id = b)) =
        (t.orders.filter fun r => r.business_id = b).filter fun r => r.id = u := by
      intro t
      rw [List.filter_filter]
    rw [Tables.get_eq ro _ hu, Tables.get_eq ro _ hu, Tables.inScope, hb, Option.map_some,
      Option.map_some, Option.map_some, hrow t, hrow t', h.visible]
    congr 1
    refine Option.map_congr fun r hr => ?_
    obtain ⟨hin, hid⟩ := List.mem_filter.mp (List.mem_of_head? hr)
    have hus : ∀ x ∈ [u], x ∈ t'.ids := by
      intro x hx
      rw [List.mem_singleton.mp hx, ← of_decide_eq_true hid]
      exact h.mem_ids_of_visible hin
    rw [h.linesOf ro hus, h.historyOf hus]

theorem all (h : TablesRestrict b t t') (hb : pg.uuidOrNull b = some b) (ro : RowOrder) :
    t.all ro (some b) = t'.all ro (some b) := by
  rw [Tables.all_eq, Tables.all_eq, Tables.inScope, hb, Option.map_some, Option.map_some,
    Option.map_some, h.visible]
  congr 1
  refine List.map_congr_left fun r _ => ?_
  have hus : ∀ u ∈ (Tables.byCreation ro (t.orders.filter fun r => r.business_id = b)).map OrderRow.id,
      u ∈ t'.ids := by
    intro u hu
    obtain ⟨r, hr, rfl⟩ := List.mem_map.mp hu
    exact h.mem_ids_of_visible (Tables.mem_byCreation.mp hr)
  rw [h.linesOf ro hus, h.historyOf hus]

end TablesRestrict

/-- The operations of the others make no difference in Postgres. -/
theorem tables_restricts (hfresh : Fresh ops) (hc : Canonical pg ops) (b : Option String) :
    ∀ before, before <+: ops →
      TablesRestrict b (tables pg before) (tables pg (ownedSoFar ops b before)) := by
  refine prefix_induction ⟨rfl, rfl, fun _ _ => rfl⟩ fun before op hp h => ?_
  rw [tables_append, ownedSoFar_append, apply_ite (tables pg), tables_append]
  cases op with
  | create order =>
    have hin := mem_created hp
    simpa [concerns] using h.create (hc.uuid order hin) (hc.business order hin)
      (tables_fresh hfresh hc hp)
  | updateStatus id status event =>
    have hbefore : before <+: ops := (List.prefix_append _ _).trans hp
    by_cases hrow : id ∈ (tables pg before).ids
    · obtain ⟨r, hr, hid⟩ := List.mem_map.mp hrow
      have howner := hfresh.owner hbefore (tables_known hc before hbefore r hr)
      rw [hid] at howner
      simpa [concerns, howner] using h.update hr hid
    · have hin := mem_of_step hp
      rw [hc.update_rejected hin hrow, hc.update_rejected hin (mt h.mem_ids hrow), ite_self]
      exact h

theorem memoryIsolated_of_fresh (hfresh : Fresh ops) : MemoryIsolated ops := by
  intro b
  have h := memory_restricts hfresh b ops List.prefix_rfl
  exact ⟨h.getIn, h.allIn⟩

theorem tablesIsolated_of_canonical (hfresh : Fresh ops) (hc : Canonical pg ops) :
    TablesIsolated pg ops := by
  intro b hb ro
  have h := tables_restricts hfresh hc b ops List.prefix_rfl
  exact ⟨h.get hb ro, h.all hb ro⟩

end StoreOp

end SupplyChain
