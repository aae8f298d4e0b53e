import Mathlib.Algebra.Order.BigOperators.Group.Finset
import SupplyChain.Orders.Proofs.AccountsProofs
import SupplyChain.Orders.Proofs.OrderStoreProofs
import SupplyChain.Orders.Proofs.RunProofs

/-!
# Proofs: any number of runs in any order keep their accounts
-/

namespace SupplyChain

open Async InventoryService SagaOrchestrator

variable {ι : Type}

/-! ## The parts of the account under a call -/

section Unshared

variable {redis redis' : Redis} {gs gs' : ι → Progress}

theorem Unshared.congr (h : Unshared redis gs) (ht : ∀ i, (gs' i).taken = (gs i).taken)
    (hr : ∀ i, (gs' i).released = (gs i).released)
    (hc : ∀ i, (gs' i).committed = (gs i).committed) : Unshared redis gs' where
  pos {i} b hb := h.pos (ht i ▸ hb)
  live {i} b hb := by
    rw [hr, hc]
    exact h.live (ht i ▸ hb)
  nonneg := h.nonneg

theorem Unshared.lookups (h : Unshared redis gs)
    (hl : ∀ key, redis'.lookup key = redis.lookup key) : Unshared redis' gs where
  pos := h.pos
  live hb hr hc := by
    rw [held, hl]
    exact h.live hb hr hc
  nonneg w s := by
    rw [units, hl]
    exact h.nonneg w s

variable [DecidableEq ι]

theorem Unshared.accept (h : Unshared redis gs) {i : ι} {b : Booking} (hpos : 0 < b.qty)
    (hle : b.qty ≤ units redis b.item) (hnew : ∀ {j c}, c ∈ (gs j).taken → c.id ≠ b.id)
    (hheld : ∀ id, held redis' id = if id = b.id then some b.qty else held redis id)
    (hunits : ∀ item, units redis' item = units redis item - if b.item = item then b.qty else 0)
    {g : Progress} (hg : g = { gs i with taken := (gs i).taken ++ [b] }) :
    Unshared redis' (Function.update gs i g) := by
  have hmem : ∀ {j c}, c ∈ (Function.update gs i g j).taken → c ∈ (gs j).taken ∨ c = b := by
    intro j c hcj
    by_cases hj : j = i
    · subst hj
      rw [Function.update_self, hg] at hcj
      simpa using hcj
    · rw [Function.update_of_ne hj] at hcj
      exact Or.inl hcj
  refine ⟨fun {j} c hcj => ?_, fun {j} c hcj hr hc => ?_, fun w s => ?_⟩
  · rcases hmem hcj with hcj | rfl
    · exact h.pos hcj
    · exact hpos
  · rcases hmem hcj with hcj | rfl
    · rw [hheld, if_neg (hnew hcj)]
      rw [update_proj Progress.released (by rw [hg])] at hr
      rw [update_proj Progress.committed (by rw [hg])] at hc
      exact h.live hcj hr hc
    · rw [hheld, if_pos rfl]
  · have := h.nonneg w s
    rw [hunits]
    by_cases hi : b.item = itemName w s
    · rw [if_pos hi, ← hi]
      omega
    · rw [if_neg hi]
      omega

theorem Unshared.resolve (h : Unshared redis gs) {i : ι} {b : Booking}
    (hapart : ∀ {j c}, c ∈ (gs j).taken → c.id = b.id → j = i)
    (hheld : ∀ id, held redis' id = if id = b.id then none else held redis id)
    (hunits : ∀ item, units redis item ≤ units redis' item) {g : Progress}
    (ht : g.taken = (gs i).taken) (hr : ∀ id ∈ (gs i).released, id ∈ g.released)
    (hc : ∀ id ∈ (gs i).committed, id ∈ g.committed) (hb : b.id ∈ g.released ∨ b.id ∈ g.committed) :
    Unshared redis' (Function.update gs i g) := by
  have htaken := update_proj (i := i) Progress.taken ht
  refine ⟨fun {j} c hcj => h.pos (htaken j ▸ hcj), fun {j} c hcj hrj hcm => ?_, fun w s => ?_⟩
  · rw [htaken] at hcj
    by_cases hj : j = i
    · subst hj
      rw [Function.update_self] at hrj hcm
      have hne : c.id ≠ b.id := by
        intro heq
        rw [heq] at hrj hcm
        exact hb.elim hrj hcm
      rw [hheld, if_neg hne]
      exact h.live hcj (fun hm => hrj (hr _ hm)) fun hm => hcm (hc _ hm)
    · rw [Function.update_of_ne hj] at hrj hcm
      rw [hheld, if_neg fun heq => hj (hapart hcj heq)]
      exact h.live hcj hrj hcm
  · exact le_trans (h.nonneg w s) (hunits _)

end Unshared

section Possession

variable {ids : ι → OrderId} {refused : OrderId → Bool} {base holdings : OrderId → Option String}
  {has has' : ι → Prop}

theorem Possession.congr (h : Possession ids refused base holdings has) (hh : ∀ i, has' i ↔ has i) :
    Possession ids refused base holdings has' where
  own hi := h.own ((hh _).mp hi)
  only hi := (h.only hi).imp_left (hh _).mpr
  accepted hi := h.accepted ((hh _).mp hi)
  others := h.others

theorem Possession.update (h : Possession ids refused base holdings has)
    (hids : Function.Injective ids) {i : ι} {x : Option String} (hi : has' i ↔ x.isSome)
    (hacc : x.isSome → refused (ids i) = false) (hh : ∀ j, j ≠ i → (has' j ↔ has j)) :
    Possession ids refused base (fun o => if o = ids i then x else holdings o) has' := by
  refine ⟨fun {j} hj => ?_, fun {j} hj => ?_, fun {j} hj => ?_, fun {id} hid => ?_⟩
  · by_cases hji : j = i
    · subst hji
      simpa using hi.mp hj
    · rw [if_neg fun heq => hji (hids heq)]
      exact h.own ((hh j hji).mp hj)
  · by_cases hji : j = i
    · subst hji
      rw [if_pos rfl] at hj
      exact Or.inl (hi.mpr hj)
    · rw [if_neg fun heq => hji (hids heq)] at hj
      exact (h.only hj).imp_left (hh j hji).mpr
  · by_cases hji : j = i
    · subst hji
      exact hacc (hi.mp hj)
    · exact h.accepted ((hh j hji).mp hj)
  · rw [if_neg fun heq => hid i heq.symm]
    exact h.others hid

end Possession

section StoreInv

variable {orders : ι → Order} {base store store' : OrderStore} {gs gs' : ι → Progress}

theorem StoreInv.congr (h : StoreInv orders base store gs) (hw : ∀ i, (gs' i).written = (gs i).written) :
    StoreInv orders base store gs' where
  driver := h.driver
  own i := hw i ▸ h.own i
  others := h.others

theorem Records.append {o o' : Order} {ws : List Write} (h : Records o ws o') (w : Write) (t : Nat) :
    Records o (ws ++ [w])
      { o' with status := w.status, history := o'.history ++ [⟨w.type, t, w.detail⟩] } where
  id := h.id
  lines := h.lines
  status := by simp
  history := by simp [h.history]

theorem StoreInv.write [DecidableEq ι] (h : StoreInv orders base store gs)
    (hids : Function.Injective fun i => (orders i).id) {i : ι} (w : Write) (t : Nat) :
    ∃ store', store.updateStatus (orders i).id w.status ⟨w.type, t, w.detail⟩ = some store' ∧
      ∀ g, g.written = (gs i).written ++ [w] →
        StoreInv orders base store' (Function.update gs i g) := by
  obtain ⟨o', hget, hrec⟩ := h.own i
  obtain ⟨store', hst, hdriver, hget'⟩ := OrderStore.updateStatus_of_get hget w.status
    ⟨w.type, t, w.detail⟩
  refine ⟨store', hst, fun g hg => ⟨hdriver.trans h.driver, fun j => ?_, fun {id} hid => ?_⟩⟩
  · by_cases hj : j = i
    · subst hj
      rw [Function.update_self, hg, hget', if_pos rfl]
      exact ⟨_, rfl, hrec.append w t⟩
    · rw [Function.update_of_ne hj, hget', if_neg fun heq => hj (hids heq)]
      exact h.own j
  · rw [hget', if_neg fun heq => hid i heq.symm]
    exact h.others hid

end StoreInv

/-! ## Every awaited call of `run` resolves and keeps the account -/

section RunsInv

variable [Fintype ι] [DecidableEq ι] {orders : ι → Order} {base w : World} {gs : ι → Progress}

/-- The stock that the lines of all orders leave suffices for a line that is still to be reserved, if
it suffices for all. -/
theorem RunsInv.short (h : RunsInv orders base w gs) {i : ι} {l : OrderLine} {lines todo : List OrderLine}
    (hpos : ∀ i, ∀ l ∈ (orders i).lines, 0 < l.qty) (hlines : (orders i).lines = lines ++ l :: todo)
    (hfill : Fills lines (gs i).taken) (hlt : units w.redis l.item < l.qty) :
    (faults orders base i).short := by
  refine ⟨l.warehouseId, l.sku, ?_⟩
  rw [getAvailable_eq]
  show units base.redis l.item < ∑ j, lineDemand (orders j).lines l.item
  have hle : ∀ j, (gs j).tied w.redis l.item + (if j = i then l.qty else 0) ≤
      lineDemand (orders j).lines l.item := by
    intro j
    have htied := (tied_bounds w.redis l.item
      fun b hb => h.unshared.pos (i := j) hb).2
    by_cases hj : j = i
    · subst hj
      have htodo : 0 ≤ lineDemand todo l.item := lineDemand_nonneg (fun m hm => hpos j m (by
        rw [hlines]
        simp [hm])) _
      rw [if_pos rfl, hlines, lineDemand_append, lineDemand_cons, if_pos rfl, ← hfill.demand]
      omega
    · have := h.within j l.item
      rw [if_neg hj]
      omega
  have hsum := Finset.sum_le_sum fun j (_ : j ∈ Finset.univ) => hle j
  rw [Finset.sum_add_distrib, Finset.sum_ite_eq' Finset.univ i, if_pos (Finset.mem_univ i)] at hsum
  have := h.stock.conserved l.item
  omega

/-! The parts of the account that a call of execution `i` leaves alone. -/

section Frame

variable {i : ι} {g : Progress}

theorem RunsInv.within_frame (h : RunsInv orders base w gs) (ht : g.taken = (gs i).taken) (j : ι)
    (item : String) :
    demand (Function.update gs i g j).taken item ≤ lineDemand (orders j).lines item := by
  rw [update_proj (i := i) Progress.taken ht]
  exact h.within j item

theorem RunsInv.stock_frame (h : RunsInv orders base w gs) (ht : g.taken = (gs i).taken)
    (hr : g.released = (gs i).released) (hc : g.committed = (gs i).committed) :
    StockInv (units base.redis) (held base.redis) (Unused w.uuids w.drawn) w.redis
      (Function.update gs i g) :=
  h.stock.congr (update_proj (i := i) Progress.taken ht) (update_proj (i := i) Progress.released hr)
    (update_proj (i := i) Progress.committed hc)

theorem RunsInv.unshared_frame (h : RunsInv orders base w gs) (ht : g.taken = (gs i).taken)
    (hr : g.released = (gs i).released) (hc : g.committed = (gs i).committed) :
    Unshared w.redis (Function.update gs i g) :=
  h.unshared.congr (update_proj (i := i) Progress.taken ht)
    (update_proj (i := i) Progress.released hr) (update_proj (i := i) Progress.committed hc)

theorem RunsInv.store_frame (h : RunsInv orders base w gs) (hw : g.written = (gs i).written) :
    StoreInv orders base.store w.store (Function.update gs i g) :=
  h.store.congr (update_proj (i := i) Progress.written hw)

theorem RunsInv.payments_frame (h : RunsInv orders base w gs) (hch : g.charged = (gs i).charged) :
    Possession (fun i => (orders i).id) base.payments.failPaymentForOrderIds base.payments.charges
      w.payments.charges fun j => (Function.update gs i g j).charged = true :=
  h.payments.congr fun j => by rw [update_proj (i := i) Progress.charged hch j]

theorem RunsInv.shipping_frame (h : RunsInv orders base w gs) (hsh : g.shipped = (gs i).shipped) :
    Possession (fun i => (orders i).id) base.shipping.failShippingForOrderIds
      base.shipping.shipments w.shipping.shipments fun j => (Function.update gs i g j).shipped = true :=
  h.shipping.congr fun j => by rw [update_proj (i := i) Progress.shipped hsh j]

end Frame

/-- The call resolves, is answered as the contract of `run` assumes, and keeps the account. -/
def Resolves (orders : ι → Order) (base w : World) (gs : ι → Progress) (i : ι) (c : Call) : Prop :=
  ∃ w' r, participate c w = (w', .ok r) ∧ Replies (faults orders base i) (orders i) c r ∧
    RunsInv orders base w' (Function.update gs i ((gs i).note c r))

theorem RunsInv.get_resolves (h : RunsInv orders base w gs) (i : ι) :
    Resolves orders base w gs i (.get (orders i).id) := by
  obtain ⟨o', hget, hrec⟩ := h.store.own i
  refine ⟨w, some o', ?_, ⟨o', rfl, hrec.id, hrec.lines⟩,
    { stock := h.stock_frame rfl rfl rfl
      unshared := h.unshared_frame rfl rfl rfl
      within := h.within_frame rfl
      store := h.store_frame rfl
      payments := h.payments_frame rfl
      shipping := h.shipping_frame rfl
      declines := h.declines
      noCourier := h.noCourier }⟩
  simp only [participate, hget]

theorem RunsInv.updateStatus_resolves (h : RunsInv orders base w gs)
    (hids : Function.Injective fun i => (orders i).id) (i : ι) (status : OrderStatus)
    (type : EventType) (detail : EventDetail) :
    Resolves orders base w gs i (.updateStatus (orders i).id status type detail) := by
  obtain ⟨store', hst, hstore⟩ := h.store.write hids (i := i) ⟨status, type, detail⟩ w.clock
  refine ⟨{ w with store := store' }, (), ?_, trivial,
    { stock := h.stock_frame rfl rfl rfl
      unshared := h.unshared_frame rfl rfl rfl
      within := h.within_frame rfl
      store := hstore _ rfl
      payments := h.payments_frame rfl
      shipping := h.shipping_frame rfl
      declines := h.declines
      noCourier := h.noCourier }⟩
  simp only [participate, hst]

theorem RunsInv.publish_resolves (h : RunsInv orders base w gs) (i : ι) (id : OrderId)
    (type : EventType) (detail : EventDetail) :
    Resolves orders base w gs i (.publish id type detail) := by
  refine ⟨_, (), rfl, trivial, ?_⟩
  rw [show (gs i).note (.publish id type detail) () = gs i from rfl, Function.update_eq_self]
  exact ⟨h.stock, h.unshared, h.within, h.store, h.payments, h.shipping, h.declines, h.noCourier⟩

theorem RunsInv.reserve_resolves (h : RunsInv orders base w gs)
    (hpos : ∀ i, ∀ l ∈ (orders i).lines, 0 < l.qty) {i : ι} {l : OrderLine}
    {lines todo : List OrderLine} (hlines : (orders i).lines = lines ++ l :: todo)
    (hfill : Fills lines (gs i).taken) (hr : (gs i).released = []) (hc : (gs i).committed = []) :
    Resolves orders base w gs i (.reserve l.warehouseId l.sku l.qty) := by
  have hposl : ∀ m ∈ l :: todo, 0 < m.qty := fun m hm => hpos i m (by
    rw [hlines]
    exact List.mem_append_right _ hm)
  have httl : 0 < DEFAULT_RESERVATION_TTL_SECONDS := by decide
  rcases reserve_spec w.redis l.warehouseId l.sku l.qty httl (w.uuids.draw w.drawn) with
    ⟨reason, remaining, hres, hwhy⟩ | ⟨redis', remaining, hres, hq, hle, hheld, hunits⟩
  · refine ⟨{ w with drawn := w.drawn + 1 }, .rejected reason remaining, ?_, ?_, ?_⟩
    · simp only [participate, hres]
    · have hqty := hposl l List.mem_cons_self
      exact h.short hpos hlines hfill (hwhy.resolve_left (by omega))
    · rw [show (gs i).note (.reserve l.warehouseId l.sku l.qty) (.rejected reason remaining) = gs i
        from rfl, Function.update_eq_self]
      exact ⟨h.stock.lookups (fun _ => rfl) fun _ => Unused.of_succ, h.unshared, h.within, h.store,
        h.payments, h.shipping, h.declines, h.noCourier⟩
  · let b : Booking := ⟨⟨l.warehouseId, l.sku, w.uuids.draw w.drawn⟩, l.qty⟩
    have hnew : ∀ {j c}, c ∈ (gs j).taken → c.id ≠ b.id := fun hc heq =>
      h.stock.used hc (heq ▸ unused_draw w.uuids w.drawn)
    refine ⟨{ w with redis := redis', drawn := w.drawn + 1 },
      .accepted (w.uuids.draw w.drawn) remaining, ?_, trivial,
      { stock := ?_
        unshared := ?_
        within := fun j item => ?_
        store := h.store_frame rfl
        payments := h.payments_frame rfl
        shipping := h.shipping_frame rfl
        declines := h.declines
        noCourier := h.noCourier }⟩
    · simp only [participate, hres]
    · exact h.stock.accept (b := b) (unused_draw _ _) (not_unused_draw _ _)
        (fun _ => Unused.of_succ) hheld hunits rfl (by simp [hr]) (by simp [hc])
    · exact h.unshared.accept (b := b) hq hle hnew hheld hunits rfl
    · by_cases hj : j = i
      · subst hj
        have htodo := lineDemand_nonneg (fun m hm => hposl m (List.mem_cons_of_mem _ hm)) item
        have hb : demand [⟨⟨l.warehouseId, l.sku, w.uuids.draw w.drawn⟩, l.qty⟩] item =
            if l.item = item then l.qty else 0 := demand_singleton b item
        simp only [Function.update_self, Progress.note, demand_append, hfill.demand, hlines,
          lineDemand_append, lineDemand_cons]
        omega
      · rw [Function.update_of_ne hj]
        exact h.within j item

theorem RunsInv.release_resolves (h : RunsInv orders base w gs) {i : ι} {b : Booking}
    (hb : b ∈ (gs i).taken) :
    Resolves orders base w gs i (.release b.reservation.warehouseId b.reservation.sku b.id) := by
  obtain ⟨redis', status, hrel, hheld, hunits⟩ :=
    release_spec w.redis b.reservation.warehouseId b.reservation.sku b.id
  have hle : ∀ item, units w.redis item ≤ units redis' item := by
    intro item
    rw [hunits]
    cases hh : held w.redis b.id with
    | none => simp
    | some q =>
      have := h.stock.qty hb hh
      have := h.unshared.pos hb
      rw [Option.getD_some]
      split <;> omega
  refine ⟨{ w with redis := redis' }, status, ?_, trivial,
    { stock := h.stock.release hb hheld hunits rfl
      unshared := ?_
      within := h.within_frame rfl
      store := h.store_frame rfl
      payments := h.payments_frame rfl
      shipping := h.shipping_frame rfl
      declines := h.declines
      noCourier := h.noCourier }⟩
  · simp only [participate, hrel]
  · exact h.unshared.resolve (fun hc heq => h.stock.apart hc hb heq) hheld hle rfl
      (by simp +contextual [Progress.note]) (by simp [Progress.note]) (by simp [Progress.note])

theorem RunsInv.commit_resolves (h : RunsInv orders base w gs) {i : ι} {b : Booking}
    (hb : b ∈ (gs i).taken) (hr : b.id ∉ (gs i).released) (hc : b.id ∉ (gs i).committed) :
    Resolves orders base w gs i (.commit b.reservation.warehouseId b.reservation.sku b.id) := by
  obtain ⟨redis', status, hcom, hheld, hunits⟩ :=
    commit_spec w.redis b.reservation.warehouseId b.reservation.sku b.id
  refine ⟨{ w with redis := redis' }, status, ?_, trivial,
    { stock := h.stock.commit hb (by simp [h.unshared.live hb hr hc]) hheld hunits rfl
      unshared := ?_
      within := h.within_frame rfl
      store := h.store_frame rfl
      payments := h.payments_frame rfl
      shipping := h.shipping_frame rfl
      declines := h.declines
      noCourier := h.noCourier }⟩
  · simp only [participate, hcom]
  · exact h.unshared.resolve (fun hc heq => h.stock.apart hc hb heq) hheld
      (fun item => (hunits item).ge) rfl (by simp [Progress.note])
      (by simp +contextual [Progress.note]) (by simp [Progress.note])

theorem RunsInv.charge_resolves (h : RunsInv orders base w gs)
    (hids : Function.Injective fun i => (orders i).id) (i : ι) (amount : Int) :
    Resolves orders base w gs i (.charge (orders i).id amount) := by
  rcases w.payments.charge_cases (orders i).id amount with
    ⟨hfail, reason, hch⟩ | ⟨payments', paymentId, hok, hch, hcharges, hfail⟩
  · refine ⟨w, .failed reason, by simp only [participate, hch], ?_, ?_⟩
    · rw [h.declines] at hfail
      exact hfail
    · rw [show (gs i).note (.charge (orders i).id amount) (.failed reason) = gs i from rfl,
        Function.update_eq_self]
      exact h
  · refine ⟨{ w with payments := payments' }, .ok paymentId, by simp only [participate, hch], trivial,
      { stock := h.stock_frame rfl rfl rfl
        unshared := h.unshared_frame rfl rfl rfl
        within := h.within_frame rfl
        store := h.store_frame rfl
        payments := ?_
        shipping := h.shipping_frame rfl
        declines := hfail.trans h.declines
        noCourier := h.noCourier }⟩
    show Possession _ _ _ payments'.charges _
    rw [hcharges]
    refine h.payments.update hids (i := i) (by simp [Progress.note])
      (fun _ => by rw [← h.declines, hok]) fun j hj => ?_
    rw [Function.update_of_ne hj]

theorem RunsInv.refund_resolves (h : RunsInv orders base w gs)
    (hids : Function.Injective fun i => (orders i).id) (i : ι) :
    Resolves orders base w gs i (.refund (orders i).id) := by
  refine ⟨{ w with payments := (w.payments.refund (orders i).id).1 }, _, rfl, trivial,
    { stock := h.stock_frame rfl rfl rfl
      unshared := h.unshared_frame rfl rfl rfl
      within := h.within_frame rfl
      store := h.store_frame rfl
      payments := ?_
      shipping := h.shipping_frame rfl
      declines := (w.payments.refund_fail _).trans h.declines
      noCourier := h.noCourier }⟩
  show Possession _ _ _ (w.payments.refund (orders i).id).1.charges _
  rw [PaymentGateway.refund_charges]
  refine h.payments.update hids (i := i) (by simp [Progress.note]) (fun hs => by cases hs)
    fun j hj => ?_
  rw [Function.update_of_ne hj]

theorem RunsInv.schedule_resolves (h : RunsInv orders base w gs)
    (hids : Function.Injective fun i => (orders i).id) (i : ι) (warehouseId : WarehouseId) :
    Resolves orders base w gs i (.schedule (orders i).id warehouseId) := by
  rcases w.shipping.schedule_cases (orders i).id warehouseId with
    ⟨hfail, reason, hsh⟩ | ⟨shipping', shipmentId, hok, hsh, hshipments, hfail⟩
  · refine ⟨w, .failed reason, by simp only [participate, hsh], ?_, ?_⟩
    · rw [h.noCourier] at hfail
      exact hfail
    · rw [show (gs i).note (.schedule (orders i).id warehouseId) (.failed reason) = gs i from rfl,
        Function.update_eq_self]
      exact h
  · refine ⟨{ w with shipping := shipping' }, .ok shipmentId, by simp only [participate, hsh], trivial,
      { stock := h.stock_frame rfl rfl rfl
        unshared := h.unshared_frame rfl rfl rfl
        within := h.within_frame rfl
        store := h.store_frame rfl
        payments := h.payments_frame rfl
        shipping := ?_
        declines := h.declines
        noCourier := hfail.trans h.noCourier }⟩
    show Possession _ _ _ shipping'.shipments _
    rw [hshipments]
    refine h.shipping.update hids (i := i) (by simp [Progress.note])
      (fun _ => by rw [← h.noCourier, hok]) fun j hj => ?_
    rw [Function.update_of_ne hj]

theorem RunsInv.resolves (h : RunsInv orders base w gs)
    (hids : Function.Injective fun i => (orders i).id)
    (hpos : ∀ i, ∀ l ∈ (orders i).lines, 0 < l.qty) {i : ι} {c : Call}
    (hp : Allowed (faults orders base i) (orders i) (gs i) c) : Resolves orders base w gs i c := by
  cases c with
  | create _ _ _ _ => exact hp.elim
  | nonTerminal => exact hp.elim
  | fields _ => exact hp.elim
  | cancel _ => exact hp.elim
  | get id =>
    obtain ⟨rfl, -⟩ := hp
    exact h.get_resolves i
  | updateStatus id status type detail =>
    obtain ⟨rfl, -⟩ := hp
    exact h.updateStatus_resolves hids i status type detail
  | publish id type detail => exact h.publish_resolves i id type detail
  | reserve warehouseId sku qty =>
    obtain ⟨hI, lines, todo, hlines, hfill⟩ := hp
    exact h.reserve_resolves hpos hlines hfill hI.released hI.committed
  | release warehouseId sku id =>
    obtain ⟨done, b, todo, htaken, hb, -⟩ := hp
    have hres := h.release_resolves (i := i) (b := b) (by simp [htaken])
    rwa [Booking.id, hb] at hres
  | commit warehouseId sku id =>
    obtain ⟨done, b, todo, htaken, hb, paymentId, shipmentId, hI⟩ := hp
    have hnodup := h.stock.own i
    rw [htaken, List.map_append, List.map_cons, List.nodup_append] at hnodup
    have hnot : b.id ∉ done.map Booking.id := fun hm => hnodup.2.2 _ hm _ List.mem_cons_self rfl
    have hres := h.commit_resolves (i := i) (b := b) (by simp [htaken]) (by simp [hI.released])
      (by rwa [hI.committed])
    rwa [Booking.id, hb] at hres
  | charge id amount =>
    obtain ⟨rfl, -⟩ := hp
    exact h.charge_resolves hids i amount
  | refund id =>
    obtain ⟨rfl, -⟩ := hp
    exact h.refund_resolves hids i
  | schedule id warehouseId =>
    obtain ⟨rfl, -⟩ := hp
    exact h.schedule_resolves hids i warehouseId

omit [DecidableEq ι] in
theorem RunsInv.idle {w' : World} (h : RunsInv orders base w gs) (hw : Idle w w') :
    RunsInv orders base w' gs := by
  obtain ⟨seconds, ms, rfl, hl⟩ := hw
  exact ⟨h.stock.lookups hl fun _ h => h, h.unshared.lookups hl, h.within, h.store, h.payments,
    h.shipping, h.declines, h.noCourier⟩

theorem runs_sound (base : World) (hids : Function.Injective fun i => (orders i).id)
    (hpos : ∀ i, ∀ l ∈ (orders i).lines, 0 < l.qty) :
    Sound (sagas ι) (fun i => runContract (faults orders base i) (orders i))
      (RunsInv orders base) :=
  Sound.of_resolves (fun hI hp _ => hI.resolves hids hpos hp.2) fun hI he => hI.idle he

omit [DecidableEq ι] in
theorem Ready.runsInv (h : Ready orders w) : RunsInv orders w w fun _ => {} where
  stock :=
    { own := fun _ => List.nodup_nil
      apart := fun hb => by cases hb
      used := fun hb => by cases hb
      vacant := h.vacant _
      qty := fun hb => by cases hb
      gone := fun hb => by cases hb
      others := fun _ => rfl
      conserved := fun item => by simp [Progress.tied] }
  unshared :=
    { pos := fun hb => by cases hb
      live := fun hb => by cases hb
      nonneg := fun warehouseId sku => getAvailable_eq ▸ h.stock warehouseId sku }
  within i item := lineDemand_nonneg (h.qty i) item
  store := ⟨rfl, fun i => ⟨orders i, h.stored i, rfl, rfl, rfl, by simp⟩, fun _ => rfl⟩
  payments := ⟨fun hi => Bool.noConfusion hi, Or.inr, fun hi => Bool.noConfusion hi, fun _ => rfl⟩
  shipping := ⟨fun hi => Bool.noConfusion hi, Or.inr, fun hi => Bool.noConfusion hi, fun _ => rfl⟩
  declines := rfl
  noCourier := rfl

/-- In every interleaving of runs the account holds, and each run keeps to its outline. -/
theorem Ready.reaches (h : Ready orders w) {P : Pool participants ι SagaError World Progress Order}
    (hr : (sagas ι).Reaches ⟨w, fun _ => {}, fun i => run (orders i).id⟩ P) :
    RunsInv orders w P.state P.aux ∧ ∀ i, RunOutline (faults orders w i) (orders i)
      (fun _ => Settled (faults orders w i) (orders i)) (P.prog i) (P.aux i) :=
  (runs_sound w h.ids h.qty).reaches hr h.runsInv fun _ => run_outline _ _

/-! ## What a run that has returned leaves behind -/

omit [DecidableEq ι] in
theorem RunsInv.confirmed (h : RunsInv orders base w gs) {i : ι} {paymentId shipmentId : String}
    (hfill : Fills (orders i).lines (gs i).taken)
    (hg : (gs i).Is [.reserved (gs i).taken, .paid paymentId, .scheduled shipmentId, .confirmed] true
      true [] ((gs i).taken.map Booking.id)) :
    (∃ o, w.store.get (orders i).id = some o ∧ o.status = .CONFIRMED) ∧
      (∀ item, (gs i).tied w.redis item = lineDemand (orders i).lines item) ∧
      ∀ b ∈ (gs i).taken, held w.redis b.id = none := by
  have hcommitted : ∀ b ∈ (gs i).taken, b.id ∈ (gs i).committed := by
    intro b hb
    rw [hg.committed]
    exact List.mem_map_of_mem hb
  refine ⟨?_, fun item => ?_, fun b hb => h.stock.gone hb (Or.inr (hcommitted b hb))⟩
  · obtain ⟨o, hget, hrec⟩ := h.store.own i
    exact ⟨o, hget, by simp [hrec.status, hg.written, Write.confirmed]⟩
  · rw [tied_of_kept fun b hb => Or.inr (hcommitted b hb), hfill.demand]

omit [DecidableEq ι] in
theorem RunsInv.cancelled (h : RunsInv orders base w gs) {i : ι} {before : List Write}
    {detail : EventDetail}
    (hg : (gs i).Is (before ++ [.compensating, .cancelled detail]) false false
      ((gs i).taken.map Booking.id) []) :
    (∃ o, w.store.get (orders i).id = some o ∧ o.status = .CANCELLED) ∧
      (∀ item, (gs i).tied w.redis item = 0) ∧
      ∀ b ∈ (gs i).taken, held w.redis b.id = none := by
  have hgone : ∀ b ∈ (gs i).taken, held w.redis b.id = none := by
    intro b hb
    refine h.stock.gone hb (Or.inl ?_)
    rw [hg.released]
    exact List.mem_map_of_mem hb
  refine ⟨?_, fun item => tied_of_gone hgone hg.committed, hgone⟩
  obtain ⟨o, hget, hrec⟩ := h.store.own i
  exact ⟨o, hget, by simp [hrec.status, hg.written, Write.cancelled]⟩

end RunsInv

end SupplyChain
