import Mathlib.Tactic.FinCases
import SupplyChain.Async.Proofs.ExecProofs
import SupplyChain.Inventory.Proofs.ExactScriptsProofs
import SupplyChain.Orders.Proofs.ServedSagasProofs

/-!
# Proofs: concurrent runs of fresh orders reconcile

When all runs have returned, the counters have lost exactly what the confirmed orders ask for, and the
charges and shipments are exactly theirs.
-/

namespace SupplyChain

open Async InventoryService SagaOrchestrator

variable {ι : Type} [Fintype ι] {orders : ι → Order} {base w : World} {gs : ι → Progress}

/-- Where a run can end, and what it then ties up and holds. -/
theorem RunsInv.settled (h : RunsInv orders base w gs) {i : ι} {f : Faults}
    (hs : Settled f (orders i) (gs i)) :
    (storedStatus w (orders i).id = some .CONFIRMED ∧ (gs i).charged = true ∧
        (gs i).shipped = true ∧
        ∀ item, (gs i).tied w.redis item = lineDemand (orders i).lines item) ∨
      (storedStatus w (orders i).id = some .CANCELLED ∧ (gs i).charged = false ∧
        (gs i).shipped = false ∧ ∀ item, (gs i).tied w.redis item = 0) := by
  cases hs with
  | confirmed hfill hg =>
    obtain ⟨⟨o, hget, hstatus⟩, htied, -⟩ := h.confirmed hfill hg
    exact Or.inl ⟨by simp [storedStatus, hget, hstatus], hg.charged, hg.shipped, htied⟩
  | cancelled hfail hg =>
    obtain ⟨⟨o, hget, hstatus⟩, htied, -⟩ := h.cancelled hg
    exact Or.inr ⟨by simp [storedStatus, hget, hstatus], hg.charged, hg.shipped, htied⟩

theorem RunsInv.settled_gone (h : RunsInv orders base w gs) {i : ι} {f : Faults}
    (hs : Settled f (orders i) (gs i)) : ∀ b ∈ (gs i).taken, held w.redis b.id = none := by
  cases hs with
  | confirmed hfill hg => exact (h.confirmed hfill hg).2.2
  | cancelled hfail hg => exact (h.cancelled hg).2.2

/-- A provider that held nothing at the start holds something exactly for the orders whose runs say so. -/
theorem Possession.isSome_iff {ids : ι → OrderId} {refused : OrderId → Bool}
    {base holdings : OrderId → Option String} {has : ι → Prop}
    (h : Possession ids refused base holdings has) (hbase : ∀ id, base id = none)
    (id : OrderId) : (holdings id).isSome ↔ ∃ i, ids i = id ∧ has i := by
  constructor
  · intro hid
    by_cases hex : ∃ i, ids i = id
    · obtain ⟨i, rfl⟩ := hex
      exact ⟨i, rfl, (h.only hid).resolve_right (by simp [hbase])⟩
    · rw [h.others fun i hi => hex ⟨i, hi⟩, hbase] at hid
      cases hid
  · rintro ⟨i, rfl, hi⟩
    exact h.own hi

/-- When all runs are settled, every counter has lost exactly the demand of the confirmed orders. -/
theorem RunsInv.settled_units (h : RunsInv orders base w gs) {f : ι → Faults}
    (hs : ∀ i, Settled (f i) (orders i) (gs i)) (item : String) :
    units w.redis item = units base.redis item - confirmedDemand orders w item := by
  have hdemand : ∑ i, (gs i).tied w.redis item = confirmedDemand orders w item := by
    refine Finset.sum_congr rfl fun i _ => ?_
    rcases h.settled (hs i) with ⟨hst, -, -, htied⟩ | ⟨hst, -, -, htied⟩ <;> simp [hst, htied]
  have hall := h.stock.conserved item
  omega

/-- When all runs are settled, no reservation is left that was not there before. -/
theorem RunsInv.settled_held (h : RunsInv orders base w gs) {f : ι → Faults}
    (hs : ∀ i, Settled (f i) (orders i) (gs i)) (hbefore : ∀ id, held base.redis id = none)
    (id : ReservationId) : held w.redis id = none := by
  by_cases hex : ∃ i, ∃ b ∈ (gs i).taken, b.id = id
  · obtain ⟨i, b, hb, rfl⟩ := hex
    exact h.settled_gone (hs i) b hb
  · rw [h.stock.others fun i b hb heq => hex ⟨i, b, hb, heq⟩, hbefore]

variable [DecidableEq ι] {lua : LuaNumbers} {ofInt : Int → lua.Num}

/-- In every interleaving of one run per fresh order, over the scripts and with fewer than 2^53 units in each
counter, no counter is ever negative, and once all runs have returned every order is confirmed or cancelled, every
counter has lost exactly the demand of the confirmed orders, no reservation is left, and exactly the confirmed
orders hold a charge and a shipment. -/
theorem runs_reconcile (hexact : lua.Exact ofInt) (h : Fresh orders w)
    (hlevel : ∀ warehouseId sku, getAvailable w.redis warehouseId sku < 2 ^ 53)
    {P : Pool participants ι SagaError (ServedWorld Keyspace) Progress Order}
    (hr : (sagasOn (.scripts lua) ι).Reaches
      ⟨⟨w, .ofRedis w.redis⟩, fun _ => {}, fun i => run (orders i).id⟩ P) :
    (∀ warehouseId sku, 0 ≤ (Deployment.scripts lua).available P.state.server warehouseId sku) ∧
    ((∀ i, ∃ o, P.prog i = .ret o) →
      (∀ i, storedStatus P.state.world (orders i).id = some .CONFIRMED ∨
        storedStatus P.state.world (orders i).id = some .CANCELLED) ∧
      (∀ warehouseId sku, (Deployment.scripts lua).available P.state.server warehouseId sku =
        getAvailable w.redis warehouseId sku -
          confirmedDemand orders P.state.world (itemName warehouseId sku)) ∧
      (∀ id, P.state.server.get (reservationKey id) = .ok none) ∧
      (∀ id, (P.state.world.payments.charges id).isSome ↔
        ∃ i, (orders i).id = id ∧ storedStatus P.state.world id = some .CONFIRMED) ∧
      ∀ id, (P.state.world.shipping.shipments id).isSome ↔
        ∃ i, (orders i).id = id ∧ storedStatus P.state.world id = some .CONFIRMED) := by
  obtain ⟨⟨w', unused, hstate, hI⟩, ho⟩ := h.reaches_served hexact hlevel hr
  have hstored : ∀ id, storedStatus P.state.world id = storedStatus w' id := by
    rw [hstate]
    exact fun _ => rfl
  have hdemand : ∀ item, confirmedDemand orders P.state.world item = confirmedDemand orders w' item := by
    rw [hstate]
    exact fun _ => rfl
  have hcharges : P.state.world.payments = w'.payments := by rw [hstate]; rfl
  have hshipments : P.state.world.shipping = w'.shipping := by rw [hstate]; rfl
  have hserver : P.state.server = .ofRedis w'.redis := by rw [hstate]; rfl
  simp only [hstored, hdemand, hcharges, hshipments, hserver, available_ofRedis, getAvailable_eq,
    Keyspace.get_ofRedis]
  refine ⟨hI.unshared.nonneg, fun hret => ?_⟩
  have hsettled : ∀ i, Settled (faults orders w i) (orders i) (P.aux i) := by
    intro i
    obtain ⟨o, hi⟩ := hret i
    have hoi := ho i
    rwa [hi] at hoi
  have hend := fun i => hI.settled (hsettled i)
  have hflags : ∀ i, ((P.aux i).charged = true ↔ storedStatus w' (orders i).id = some .CONFIRMED) ∧
      ((P.aux i).shipped = true ↔ storedStatus w' (orders i).id = some .CONFIRMED) := by
    intro i
    rcases hend i with ⟨hst, hch, hsh, -⟩ | ⟨hst, hch, hsh, -⟩ <;> simp [hst, hch, hsh]
  refine ⟨fun i => (hend i).imp And.left And.left, fun _ _ => hI.settled_units hsettled _, fun id => ?_,
    fun id => ?_, fun id => ?_⟩
  · have hnone : w'.redis.lookup (reservationKey id) = none := hI.settled_held hsettled h.noReservation id
    rw [hnone]
    rfl
  · rw [hI.payments.isSome_iff h.noCharge]
    refine exists_congr fun i => and_congr_right fun hid => ?_
    rw [(hflags i).1, hid]
  · rw [hI.shipping.isSome_iff h.noShipment]
    refine exists_congr fun i => and_congr_right fun hid => ?_
    rw [(hflags i).2, hid]

/-- The two orders of the example, on a number of units and with the scripts on doubles. -/
def pairStart (orders : Fin 2 → Order) (qty : Int) :
    Pool participants (Fin 2) SagaError (ServedWorld Keyspace) Progress Order :=
  let w := startWorld .inMemory [orders 0, orders 1] qty (fun _ => false) fun _ => false
  ⟨⟨w, .ofRedis w.redis⟩, fun _ => {}, fun i => run (orders i).id⟩

section Pair

variable {orders : Fin 2 → Order} {qty : Int}

theorem pairStart_stock (orders : Fin 2 → Order) (qty : Int) (warehouseId : WarehouseId) (sku : Sku) :
    getAvailable (pairStart orders qty).state.world.redis warehouseId sku = qty ∨
      getAvailable (pairStart orders qty).state.world.redis warehouseId sku = 0 := by
  rw [getAvailable_eq]
  show units (setStock Redis.empty "warehouse" "sku" qty) _ = qty ∨ units (setStock _ _ _ _) _ = 0
  rw [setStock, units_set]
  split
  · exact Or.inl rfl
  · exact Or.inr rfl

theorem pair_fresh (hids : (orders 0).id ≠ (orders 1).id) (hstock : 0 ≤ qty)
    (hlines : ∀ i, (orders i).lines ≠ [] ∧ ∀ l ∈ (orders i).lines, 0 < l.qty)
    (hnew : ∀ i, (orders i).status = .CREATED ∧ (orders i).history = []) :
    Fresh orders (pairStart orders qty).state.world where
  ids := by
    intro i j h
    fin_cases i <;> fin_cases j <;> first | rfl | exact absurd h hids | exact absurd h.symm hids
  stored := by
    intro i
    show ((OrderStore.create (.create (.empty .inMemory) (orders 0)) (orders 1)).get _) = _
    rw [OrderStore.create, OrderStore.create, OrderStore.get_put, OrderStore.get_put]
    fin_cases i
    · exact (if_neg hids).trans (if_pos rfl)
    · exact if_pos rfl
  qty i := (hlines i).2
  stock warehouseId sku := by
    rcases pairStart_stock orders qty warehouseId sku with h | h <;> rw [h]
    exact hstock
  vacant _ _ := rfl
  created i := (hnew i).1
  noHistory i := (hnew i).2
  lines i := (hlines i).1
  noReservation _ := rfl
  noCharge _ := rfl
  noShipment _ := rfl

end Pair

/-- Two orders that compete for five units. -/
def rivals : Fin 2 → Order
  | 0 => freshOrder "a" [⟨"sku", 2, "warehouse"⟩, ⟨"sku", 2, "warehouse"⟩]
  | 1 => freshOrder "b" [⟨"sku", 1, "warehouse"⟩, ⟨"sku", 3, "warehouse"⟩]

/-- The two take turns. -/
def rivalTurns : List (Fin 2) := (List.replicate 20 [0, 1]).flatten

/-- The two runs, at their end. -/
def rivalEnd : Pool participants (Fin 2) SagaError (ServedWorld Keyspace) Progress Order :=
  (sagasOn (.scripts .doubles) (Fin 2)).schedule (pairStart rivals 5) rivalTurns

/-- Taking turns, the first order gets its four units, and the second returns the unit that it got. -/
theorem runs_reconcile_rivals :
    (sagasOn (.scripts .doubles) (Fin 2)).Reaches (pairStart rivals 5) rivalEnd ∧
      storedStatus rivalEnd.state.world "a" = some .CONFIRMED ∧
      (Deployment.scripts .doubles).available rivalEnd.state.server "warehouse" "sku" =
        getAvailable (pairStart rivals 5).state.world.redis "warehouse" "sku" -
          confirmedDemand rivals rivalEnd.state.world (itemName "warehouse" "sku") ∧
      ∀ id, (rivalEnd.state.world.payments.charges id).isSome ↔
        ∃ i, (rivals i).id = id ∧ storedStatus rivalEnd.state.world id = some .CONFIRMED := by
  have hr : (sagasOn (.scripts .doubles) (Fin 2)).Reaches (pairStart rivals 5) rivalEnd :=
    reaches_admitted rivalTurns _ (by decide +kernel)
  have hfresh : Fresh rivals (pairStart rivals 5).state.world :=
    pair_fresh (by decide) (by decide) (by decide) (by decide)
  have hlevel : ∀ warehouseId sku,
      getAvailable (pairStart rivals 5).state.world.redis warehouseId sku < 2 ^ 53 := by
    intro warehouseId sku
    rcases pairStart_stock rivals 5 warehouseId sku with h | h <;> rw [h] <;> decide
  have hret : ∀ i, (rivalEnd.prog i).returned = true := by decide +kernel
  obtain ⟨-, hend⟩ := runs_reconcile doubles_exact hfresh hlevel hr
  obtain ⟨-, hstock, -, hcharges, -⟩ := hend fun i => Prog.returned_iff.mp (hret i)
  exact ⟨hr, by decide +kernel, hstock _ _, hcharges⟩

/-- One order for one unit, and one for 2^53 + 4. -/
def overdrawn : Fin 2 → Order
  | 0 => freshOrder "a" [⟨"sku", 1, "warehouse"⟩]
  | 1 => freshOrder "b" [⟨"sku", 9007199254740996, "warehouse"⟩]

/-- Of 2^53 + 4 units the first order reserves one and the second all, and the counter goes negative. -/
theorem overdrawn_negative : ∃ (orders : Fin 2 → Order) (w : World)
    (P : Pool participants (Fin 2) SagaError (ServedWorld Keyspace) Progress Order),
    Fresh orders w ∧
      (sagasOn (.scripts .doubles) (Fin 2)).Reaches
        ⟨⟨w, .ofRedis w.redis⟩, fun _ => {}, fun i => run (orders i).id⟩ P ∧
      (Deployment.scripts .doubles).available P.state.server "warehouse" "sku" = -1 :=
  ⟨overdrawn, (pairStart overdrawn 9007199254740996).state.world,
    (sagasOn (.scripts .doubles) (Fin 2)).schedule (pairStart overdrawn 9007199254740996) [0, 1, 0, 1],
    pair_fresh (by decide) (by decide) (by decide) (by decide),
    reaches_admitted [0, 1, 0, 1] (pairStart overdrawn 9007199254740996) (by decide +kernel), by decide +kernel⟩

end SupplyChain
