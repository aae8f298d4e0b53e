import SupplyChain.Orders.OrderStores
import SupplyChain.Orders.Proofs.OrderStoreProofs
import SupplyChain.Orders.Proofs.PgOrderStoreProofs

/-!
# Proofs: the orders that both stores accept and return alike
-/

namespace SupplyChain

open Collections StoreOp

namespace Tables

variable {pg : Postgres} {t t' : Tables pg} {u : OrderId} {b : Option String}

theorem keys_nodup_iff {lines : List OrderLine} :
    ((lines.map (OrderLine.row u)).map OrderLineRow.key).Nodup ↔
      (lines.map fun line => (line.sku, line.warehouseId)).Nodup := by
  have hkeys : (lines.map (OrderLine.row u)).map OrderLineRow.key =
      (lines.map fun line => (line.sku, line.warehouseId)).map fun key => (u, key) := by
    rw [List.map_map, List.map_map]
    rfl
  rw [hkeys, List.nodup_map_iff]
  intro key key' h
  exact (Prod.mk.inj h).2

theorem fresh_keys (hfresh : u ∉ t.orders.map OrderRow.id) {lines : List OrderLine} :
    ∀ key ∈ t.order_lines.map OrderLineRow.key,
      ∀ key' ∈ (lines.map (OrderLine.row u)).map OrderLineRow.key, key ≠ key' := by
  intro key hkey key' hkey' heq
  obtain ⟨row, hrow, rfl⟩ := List.mem_map.mp hkey
  obtain ⟨row', hrow', hsame⟩ := List.mem_map.mp hkey'
  have hid : u = row.order_id :=
    (OrderLine.order_id_of_mem hrow').symm.trans (congrArg Prod.fst (hsame.trans heq.symm))
  exact hfresh (hid ▸ t.order_lines_order row hrow)

/-- A new order is inserted exactly when its own rows meet the constraints. -/
theorem create_iff {order : Order} (hu : pg.uuid order.id = some u)
    (hb : pg.uuidOrNull order.businessId = some b) (hfresh : u ∉ t.orders.map OrderRow.id) :
    (∃ t', t.create order = some t') ↔ (order.row u b).fits = true ∧
      (∀ line ∈ order.lines, (line.row u).fits pg = true) ∧
        (order.lines.map fun line => (line.sku, line.warehouseId)).Nodup := by
  rw [← keys_nodup_iff (u := u)]
  constructor
  · rintro ⟨t', h⟩
    obtain ⟨t₁, horder, hlines⟩ := Option.bind_eq_some_iff.mp h
    obtain ⟨b', hb', u', hu', hfits, -, horders, -, -⟩ := insertOrder_spec horder
    obtain rfl := Option.some.inj (hu.symm.trans hu')
    obtain rfl := Option.some.inj (hb.symm.trans hb')
    have hmem : u ∈ t₁.orders.map OrderRow.id := by
      rw [horders, List.map_append]
      exact List.mem_append_right _ (List.mem_singleton.mpr rfl)
    obtain ⟨hall, hnodup⟩ := (insertLines_iff order.lines hu hmem).mp ⟨t', hlines⟩
    rw [List.map_append] at hnodup
    exact ⟨hfits, hall, (List.nodup_append.mp hnodup).2.1⟩
  · rintro ⟨hfits, hall, hnodup⟩
    obtain ⟨t₁, ht₁⟩ := insertOrder_isSome hb hu hfits hfresh
    obtain ⟨b', -, u', hu', -, -, horders, hlines, -⟩ := insertOrder_spec ht₁
    obtain rfl := Option.some.inj (hu.symm.trans hu')
    have hmem : u ∈ t₁.orders.map OrderRow.id := by
      rw [horders, List.map_append]
      exact List.mem_append_right _ (List.mem_singleton.mpr rfl)
    obtain ⟨t', ht'⟩ := (insertLines_iff order.lines hu hmem).mpr ⟨hall, by
      rw [hlines, List.map_append]
      exact List.nodup_append.mpr ⟨t.order_lines_key, hnodup, fresh_keys hfresh⟩⟩
    exact ⟨t', by rw [create, ht₁]; exact ht'⟩

theorem create_iff_meets (order : Order) (hu : pg.uuid order.id = some order.id)
    (hb : pg.uuidOrNull order.businessId = some order.businessId)
    (hfresh : order.id ∉ t.orders.map OrderRow.id) :
    (∃ t', t.create order = some t') ↔ MeetsConstraints pg order := by
  rw [create_iff hu hb hfresh, MeetsConstraints, OrderRow.fits, Bool.and_eq_true, and_assoc]
  rfl

/-- The lines that are read for a new order: its own, in any order. -/
theorem linesOf_created {order : Order} (hu : pg.uuid order.id = some u)
    (hfresh : u ∉ t.orders.map OrderRow.id) (h : t.create order = some t') (ro : RowOrder) :
    t'.linesOf ro [u] u = (ro.lines (order.lines.map (OrderLine.row u))).map
      fun r => ⟨r.sku, r.qty, r.warehouse_id⟩ := by
  obtain ⟨-, -, u', hu', -, -, hlines, -⟩ := create_spec h
  obtain rfl := Option.some.inj (hu.symm.trans hu')
  have hown : t'.order_lines.filter (fun r => r.order_id ∈ [u]) = order.lines.map (OrderLine.row u) := by
    have hold : t.order_lines.filter (fun r => r.order_id ∈ [u]) = [] := by
      refine List.filter_eq_nil_iff.mpr fun r hr hmem => hfresh ?_
      rw [decide_eq_true_eq, List.mem_singleton] at hmem
      exact hmem ▸ t.order_lines_order r hr
    have hnew : (order.lines.map (OrderLine.row u)).filter (fun r => r.order_id ∈ [u]) =
        order.lines.map (OrderLine.row u) := by
      refine List.filter_eq_self.mpr fun r hr => ?_
      simp [OrderLine.order_id_of_mem hr]
    rw [hlines, List.filter_append, hold, hnew, List.nil_append]
  rw [linesOf, hown]
  congr 1
  refine List.filter_eq_self.mpr fun r hr => ?_
  simp [OrderLine.order_id_of_mem ((ro.lines_perm _).mem_iff.mp hr)]

/-- What is read for a new order. -/
theorem get_created (order : Order) (hu : pg.uuid order.id = some order.id)
    (hb : pg.uuidOrNull order.businessId = some order.businessId)
    (hfresh : order.id ∉ t.orders.map OrderRow.id) (h : t.create order = some t') (ro : RowOrder) :
    t'.get ro order.id none = some (some ((order.row order.id order.businessId).toOrder
      ((ro.lines (order.lines.map (OrderLine.row order.id))).map
        fun r => ⟨r.sku, r.qty, r.warehouse_id⟩) (t'.historyOf [order.id] order.id))) := by
  obtain ⟨b', hb', u', hu', -, horders, -, -⟩ := create_spec h
  obtain rfl := Option.some.inj (hu.symm.trans hu')
  obtain rfl := Option.some.inj (hb.symm.trans hb')
  have hfound : (t'.orders.filter fun r => r.id = order.id && true) =
      [order.row order.id order.businessId] := by
    have hold : t.orders.filter (fun r => r.id = order.id && true) = [] := by
      refine List.filter_eq_nil_iff.mpr fun r hr hmem => hfresh ?_
      rw [Bool.and_true, decide_eq_true_eq] at hmem
      exact hmem ▸ List.mem_map_of_mem hr
    rw [horders, List.filter_append, hold, List.nil_append]
    exact List.filter_eq_self.mpr fun r hr => by
      rw [List.mem_singleton.mp hr]
      simp [Order.row]
  rw [get_eq ro none hu, inScope, Option.map_some, hfound, linesOf_created hu hfresh h]
  rfl

end Tables

theorem length_le_one_of_reverse {α : Type} {l : List α} (hnodup : l.Nodup) (h : l.reverse = l) :
    l.length ≤ 1 := by
  cases l with
  | nil => exact Nat.zero_le 1
  | cons a l =>
    cases l with
    | nil => exact Nat.le_refl 1
    | cons b l =>
      -- the first element is the last one
      have hlast : (a :: b :: l).getLast? = some a := by
        rw [← List.head?_reverse, h]
        rfl
      have hmem : a ∈ b :: l := by
        rw [List.getLast?_cons_cons] at hlast
        exact List.mem_of_getLast? hlast
      exact absurd hmem (List.nodup_cons.mp hnodup).1

variable {pg : Postgres} {t : Tables pg} {store : OrderStore}

/-- Rows that come back in the reverse of the order in which they were inserted. -/
def RowOrder.reversed : RowOrder :=
  ⟨id, List.reverse, List.Perm.refl, List.reverse_perm⟩

theorem map_back_row (id : OrderId) (lines : List OrderLine) :
    (lines.map (OrderLine.row id)).map (fun r => (⟨r.sku, r.qty, r.warehouse_id⟩ : OrderLine)) =
      lines := by
  rw [List.map_map]
  exact List.map_id'' (fun _ => rfl) lines

/-- Both stores accept and return a new order alike exactly when it has one line and meets the constraints
of the tables. -/
theorem storesAgree_iff (p : CreateOrder) {id : OrderId} {businessId : Option String} (now : Nat)
    (hid : pg.uuid id = some id) (hbusiness : pg.uuidOrNull businessId = some businessId)
    (hfresh : id ∉ t.orders.map OrderRow.id) :
    StoresAgree t store (p.order id businessId now) ↔
      p.lines.length = 1 ∧ MeetsConstraints pg (p.order id businessId now) := by
  have hstored : (store.create (p.order id businessId now)).get id =
      some (p.order id businessId now) := by
    rw [OrderStore.create, OrderStore.get_put]
    exact if_pos rfl
  constructor
  · rintro ⟨t', ht', hsame⟩
    have hmeets := (Tables.create_iff_meets (p.order id businessId now) hid hbusiness hfresh).mp ⟨t', ht'⟩
    refine ⟨?_, hmeets⟩
    obtain ⟨o, o', hget, hget', -, -, -, -, hlines⟩ := hsame .reversed
    have hread := Tables.get_created (p.order id businessId now) hid hbusiness hfresh ht' .reversed
    obtain rfl := Option.some.inj (Option.some.inj (hread.symm.trans hget))
    obtain rfl := Option.some.inj (hstored.symm.trans hget')
    have hreverse : p.lines.reverse = p.lines := by
      have hback := map_back_row id p.lines.reverse
      rw [List.map_reverse] at hback
      exact hback.symm.trans hlines
    have hnodup : p.lines.Nodup := hmeets.2.2.2.of_map _
    have hle := length_le_one_of_reverse hnodup hreverse
    have hpos := List.length_pos_iff.mpr p.lines_min
    omega
  · rintro ⟨hone, hmeets⟩
    obtain ⟨t', ht'⟩ := (Tables.create_iff_meets (p.order id businessId now) hid hbusiness hfresh).mpr hmeets
    refine ⟨t', ht', fun ro => ⟨_, _, Tables.get_created (p.order id businessId now) hid hbusiness
      hfresh ht' ro, hstored, rfl, rfl, rfl, rfl, ?_⟩⟩
    obtain ⟨line, hline⟩ := List.length_eq_one_iff.mp hone
    show (ro.lines (p.lines.map (OrderLine.row id))).map _ = p.lines
    have hrows : ro.lines (p.lines.map (OrderLine.row id)) = p.lines.map (OrderLine.row id) := by
      have hperm := ro.lines_perm (p.lines.map (OrderLine.row id))
      rw [hline, List.map_singleton] at hperm ⊢
      exact List.perm_singleton.mp hperm
    rw [hrows]
    exact map_back_row id p.lines

theorem storesAgree_oneLine :
    let p : CreateOrder := ⟨"customer", 100, [⟨"sku", 1, "w1"⟩], by decide, by decide, by decide, by decide⟩
    StoresAgree (Tables.empty : Tables .plain) (.empty .inMemory)
        (p.order "00000000-0000-4000-8000-00000000000a" none 1) ↔
      p.lines.length = 1 ∧
        MeetsConstraints .plain (p.order "00000000-0000-4000-8000-00000000000a" none 1) :=
  storesAgree_iff _ 1 (by decide +kernel) rfl (by decide)

/-- Two lines for the same item in the same warehouse. -/
def sameItemTwice : CreateOrder where
  customerId := "customer"
  amountCents := 100
  lines := [⟨"sku", 1, "w1"⟩, ⟨"sku", 2, "w1"⟩]
  customerId_min := by decide
  amountCents_positive := by decide
  lines_min := by decide
  line_valid := by decide

/-- Postgres rejects them. -/
theorem sameItemTwice_rejected : ¬ ∀ (pg : Postgres) (t : Tables pg) (store : OrderStore)
    (p : CreateOrder) (id : OrderId) (businessId : Option String) (now : Nat),
    pg.uuid id = some id → pg.uuidOrNull businessId = some businessId →
    id ∉ t.orders.map OrderRow.id → StoresAgree t store (p.order id businessId now) := by
  intro hall
  have hrejected : ((Tables.empty : Tables .plain).create
      (sameItemTwice.order "00000000-0000-4000-8000-00000000000a" none 1)).isNone = true := by
    decide +kernel
  obtain ⟨t', ht', -⟩ := hall .plain .empty (.empty .inMemory) sameItemTwice
    "00000000-0000-4000-8000-00000000000a" none 1 (by decide +kernel) rfl (by decide)
  rw [ht'] at hrejected
  cases hrejected

end SupplyChain
