import Mathlib.Algebra.Order.Ring.Int
import Mathlib.Algebra.Order.BigOperators.Group.List
import SupplyChain.Collections.Proofs.SumProofs
import SupplyChain.Inventory.Ledger
import SupplyChain.Inventory.Proofs.InventoryServiceProofs

/-!
# Proofs: the ledger of the inventory balances

Every operation keeps the invariant that relates the keyspace to the history. The counters never go
negative and no reservation is resolved twice; what lapses is nobody's.
-/

namespace SupplyChain

open InventoryService Collections

/-! ## Entries after a command -/

namespace Redis

variable {r : Redis} {key x : String}

theorem entries_put (e : Option Entry) : (r.put key e).entries x =
    if x = key then e else r.entries x := rfl

theorem entries_incrBy_of_ne (h : x ≠ key) (n : Int) : (r.incrBy key n).entries x = r.entries x := by
  unfold incrBy
  split <;> rw [entries_put, if_neg h]

/-- A counter without a deadline does not get one. -/
theorem expireAt_incrBy (h : ∀ e, r.entries x = some e → e.expireAt = none) (n : Int) :
    ∀ e, (r.incrBy key n).entries x = some e → e.expireAt = none := by
  intro e he
  by_cases hx : x = key
  · subst hx
    unfold incrBy at he
    split at he
    · rename_i e' he'
      rw [entries_put, if_pos rfl, Option.some.injEq] at he
      rw [← he]
      exact h e' (Option.filter_eq_some_iff.mp he').1
    · rw [entries_put, if_pos rfl, Option.some.injEq] at he
      rw [← he]
  · rw [entries_incrBy_of_ne hx] at he
    exact h e he

end Redis

/-! ## The ledger after an event -/

namespace Trace

variable {tr tr' : Trace} {item : String} {e : Event}

theorem sets_cons : sets (e :: tr) item = (e.sets item).toList ++ sets tr item := by
  unfold sets
  cases h : e.sets item <;> simp [h]

theorem released_cons : released (e :: tr) = e.released.toList ++ released tr := by
  unfold released
  cases h : e.released <;> simp [h]

theorem committed_cons : committed (e :: tr) = e.committed.toList ++ committed tr := by
  unfold committed
  cases h : e.committed <;> simp [h]

theorem since_cons_of_none (h : e.sets item = none) : since (e :: tr) item = e :: since tr item := by
  simp [since, h]

theorem since_cons_of_some {q : Int} (h : e.sets item = some q) : since (e :: tr) item = [] := by
  simp [since, h]

theorem lastSet_cons_of_none (h : e.sets item = none) : lastSet (e :: tr) item = lastSet tr item := by
  simp [lastSet, sets_cons, h]

theorem lastSet_cons_of_some {q : Int} (h : e.sets item = some q) : lastSet (e :: tr) item = q := by
  simp [lastSet, sets_cons, h]

/-- What was released since the counter was set was released. -/
theorem released_since {id : ReservationId} (h : id ∈ released (since tr item)) : id ∈ released tr := by
  unfold released since at *
  exact (List.takeWhile_sublist _).filterMap _ |>.subset h

/-! ### Totals -/

theorem total_congr {p p' : Grant → Prop} [DecidablePred p] [DecidablePred p']
    (hg : grants tr' = grants tr) (h : ∀ g ∈ grants tr, p' g ↔ p g) :
    total tr' item p' = total tr item p := by
  unfold total
  rw [hg]
  refine congrArg List.sum (List.map_congr_left fun g hmem => ?_)
  simp only [h g hmem]

/-- One more reservation is accepted. -/
theorem total_accept {p p' : Grant → Prop} [DecidablePred p] [DecidablePred p'] {g : Grant}
    (hg : grants tr' = g :: grants tr) (h : ∀ g' ∈ grants tr, p' g' ↔ p g') :
    total tr' item p' = total tr item p + if g.item = item ∧ p' g then g.qty else 0 := by
  have hrest : total tr item p' = total tr item p := total_congr rfl h
  unfold total at *
  rw [hg, List.map_cons, List.sum_cons, hrest]
  omega

/-- One reservation is moved into the total, if `moved`. -/
theorem total_move {p p' : Grant → Prop} [DecidablePred p] [DecidablePred p'] {g : Grant}
    {moved : Prop} [Decidable moved] (hids : ((grants tr).map Grant.id).Nodup)
    (hmem : g ∈ grants tr) (hg : grants tr' = grants tr)
    (h : ∀ g' ∈ grants tr, g'.id ≠ g.id → (p' g' ↔ p g')) (hp : ¬ p g) (hp' : p' g ↔ moved) :
    total tr' item p' = total tr item p + if g.item = item ∧ moved then g.qty else 0 := by
  have hchange : ((grants tr).map fun g => if g.item = item ∧ p' g then g.qty else 0).sum =
      ((grants tr).map fun g => if g.item = item ∧ p g then g.qty else 0).sum +
        ((if g.item = item ∧ p' g then g.qty else 0) -
          if g.item = item ∧ p g then g.qty else 0) :=
    sum_map_change hids hmem fun g' hmem' hne => by simp only [h g' hmem' hne]
  unfold total
  rw [hg, hchange, if_neg fun hand : g.item = item ∧ p g => hp hand.2]
  simp only [hp']
  omega

/-- A reservation that was open and no longer is. -/
theorem openQty_resolve {g : Grant} (hids : ((grants tr').map Grant.id).Nodup) (hmem : g ∈ grants tr')
    (ho : Open tr g) (hg : grants tr' = grants tr) (hopen : ∀ g', Open tr' g' ↔ Open tr g' ∧ g'.id ≠ g.id) :
    openQty tr item = openQty tr' item + if g.item = item then g.qty else 0 := by
  have hmove : total tr item (Open tr) =
      total tr' item (Open tr') + if g.item = item ∧ True then g.qty else 0 :=
    total_move hids hmem hg.symm (fun g' _ hne => by rw [hopen, and_iff_left hne])
      (fun hopen' => ((hopen g).mp hopen').2 rfl) (iff_true_intro ho)
  simp only [and_true] at hmove
  exact hmove

theorem total_nonneg {p : Grant → Prop} [DecidablePred p] (h : ∀ g ∈ grants tr, 0 < g.qty) :
    0 ≤ total tr item p := by
  unfold total
  refine List.sum_nonneg fun n hn => ?_
  obtain ⟨g, hg, rfl⟩ := List.mem_map.mp hn
  have := h g hg
  split <;> omega

/-- A total splits along a predicate. -/
theorem total_split {p q q' : Grant → Prop} [DecidablePred p] [DecidablePred q] [DecidablePred q']
    (h : ∀ g ∈ grants tr, p g ↔ q g ∨ q' g) (hex : ∀ g ∈ grants tr, q g → ¬ q' g) :
    total tr item p = total tr item q + total tr item q' := by
  unfold total
  rw [← List.sum_map_add]
  refine congrArg List.sum (List.map_congr_left fun g hg => ?_)
  have hex' := hex g hg
  simp only [h g hg]
  by_cases hi : g.item = item <;> by_cases hq : q g <;> by_cases hq' : q' g <;> simp_all

theorem total_of_none {p : Grant → Prop} [DecidablePred p]
    (h : ∀ g ∈ grants tr, g.item = item → ¬ p g) : total tr item p = 0 := by
  have hzero : ∀ g ∈ grants tr, (if g.item = item ∧ p g then g.qty else 0) = 0 :=
    fun g hg => if_neg fun hand => h g hg hand.1 hand.2
  unfold total
  rw [List.map_congr_left hzero]
  simp

theorem total_mono {p q : Grant → Prop} [DecidablePred p] [DecidablePred q]
    (hpos : ∀ g ∈ grants tr, 0 < g.qty) (h : ∀ g ∈ grants tr, p g → q g) : total tr item p ≤ total tr item q := by
  refine List.sum_le_sum fun g hg => ?_
  have hqty := hpos g hg
  by_cases hp : g.item = item ∧ p g
  · rw [if_pos hp, if_pos ⟨hp.1, h g hg hp.2⟩]
  · rw [if_neg hp]
    split <;> omega

/-- A reservation is part of the total. -/
theorem le_total {p : Grant → Prop} [DecidablePred p] (hpos : ∀ g ∈ grants tr, 0 < g.qty) {g : Grant}
    (hg : g ∈ grants tr) (hp : p g) : g.qty ≤ total tr g.item p := by
  have hterm : ∀ x ∈ (grants tr).map fun g' => if g'.item = g.item ∧ p g' then g'.qty else 0, 0 ≤ x := by
    intro x hx
    obtain ⟨g', hg', rfl⟩ := List.mem_map.mp hx
    have := hpos g' hg'
    split <;> omega
  exact List.single_le_sum hterm _ (List.mem_map.mpr ⟨g, hg, if_pos ⟨rfl, hp⟩⟩)

/-- A total of positive quantities is zero only if it is empty. -/
theorem total_eq_zero {p : Grant → Prop} [DecidablePred p] (hpos : ∀ g ∈ grants tr, 0 < g.qty) :
    total tr item p = 0 ↔ ∀ g ∈ grants tr, g.item = item → ¬ p g := by
  constructor
  · rintro hzero g hg rfl hp
    have hle := le_total hpos hg hp
    have hqty := hpos g hg
    omega
  · exact total_of_none

end Trace

/-! ## The invariant -/

open Trace

/-- The keyspace is what the history makes it. -/
structure LedgerInv (tr : Trace) (redis : Redis) : Prop where
  now : redis.now = clock tr
  ids : ((grants tr).map Grant.id).Nodup
  pos : ∀ g ∈ grants tr, 0 < g.qty
  once : (released tr ++ committed tr).Nodup
  granted : ∀ id ∈ released tr ++ committed tr, ∃ g ∈ grants tr, g.id = id
  answered : ∀ e ∈ tr, e.Answered
  /-- The key of an open reservation holds its quantity and its deadline. -/
  entry : ∀ g ∈ grants tr, Open tr g →
    redis.entries (reservationKey g.id) = some ⟨g.qty, some g.expireAt⟩
  /-- There are no other reservation keys. -/
  noEntry : ∀ id, (∀ g ∈ grants tr, g.id = id → ¬ Open tr g) →
    redis.entries (reservationKey id) = none
  /-- Counters have no deadline. -/
  persistent : ∀ item e, redis.entries ("stock:" ++ item) = some e → e.expireAt = none
  level : ∀ item, units redis item = lastSet tr item - acceptedSince tr item + releasedSince tr item
  nonneg : ∀ item, 0 ≤ units redis item
  /-- Nothing can be reserved of an item whose counter was never set. -/
  unset : ∀ item, sets tr item = [] → units redis item = 0 ∧ ∀ g ∈ grants tr, g.item ≠ item
  /-- What was set once is in the counter, in open reservations or committed. -/
  balance : ∀ item q, sets tr item = [q] →
    units redis item + openQty tr item + committedQty tr item = q

section Steps

variable {tr : Trace} {redis redis' : Redis} {e : Event}

/-- The event leaves every counter and every reservation as it is. -/
structure Event.Quiet (e : Event) : Prop where
  sets : ∀ item, e.sets item = none
  grant : ∀ now, e.grant now = none
  released : e.released = none
  committed : e.committed = none

/-- Time alone does not change a counter. -/
theorem LedgerInv.units_of_entries (h : LedgerInv tr redis) (hentries : redis'.entries = redis.entries)
    (item : String) : units redis' item = units redis item := by
  have hlive : ∀ (r : Redis), r.entries = redis.entries → r.lookup ("stock:" ++ item) =
      (redis.entries ("stock:" ++ item)).map Entry.value := by
    intro r hr
    unfold Redis.lookup
    rw [hr]
    cases he : redis.entries ("stock:" ++ item) with
    | none => rfl
    | some e =>
      have := h.persistent item e he
      obtain ⟨v, t⟩ := e
      subst this
      simp [Option.filter_some]
  rw [units, units, hlive redis' hentries, hlive redis rfl]

theorem LedgerInv.quiet (h : LedgerInv tr redis) (he : e.Quiet) (ha : e.Answered)
    (hentries : redis'.entries = redis.entries) (hnow : redis'.now = redis.now + e.ms) :
    LedgerInv (e :: tr) redis' := by
  have hg : grants (e :: tr) = grants tr := by simp [grants, he.grant]
  have hr : released (e :: tr) = released tr := by simp [released_cons, he.released]
  have hc : committed (e :: tr) = committed tr := by simp [committed_cons, he.committed]
  have hs : ∀ item, sets (e :: tr) item = sets tr item := by simp [sets_cons, he.sets]
  have hopen : ∀ g, Open (e :: tr) g ↔ Open tr g := fun g => by rw [Open, Open, hr, hc]
  have hunits := h.units_of_entries hentries
  refine
    { now := ?now
      ids := hg ▸ h.ids
      pos := hg ▸ h.pos
      once := ?once
      granted := ?granted
      answered := List.forall_mem_cons.mpr ⟨ha, h.answered⟩
      entry := ?entry
      noEntry := ?noEntry
      persistent := ?persistent
      level := fun item => ?level
      nonneg := ?nonneg
      unset := ?unset
      balance := ?balance }
  case now =>
    rw [hnow, h.now, clock]
  case once =>
    rw [hr, hc]
    exact h.once
  case granted =>
    rw [hr, hc, hg]
    exact h.granted
  case entry =>
    intro g hmem ho
    rw [hentries]
    exact h.entry g (hg ▸ hmem) ((hopen g).mp ho)
  case noEntry =>
    intro id hid
    rw [hentries]
    exact h.noEntry id fun g hmem heq ho => hid g (hg ▸ hmem) heq ((hopen g).mpr ho)
  case persistent =>
    rw [hentries]
    exact h.persistent
  case level =>
    have hsince : since (e :: tr) item = e :: since tr item := since_cons_of_none (he.sets item)
    have hacc : acceptedSince (e :: tr) item = acceptedSince tr item := by
      rw [acceptedSince, acceptedSince, hsince]
      exact total_congr (by simp [grants, he.grant]) fun _ _ => Iff.rfl
    have hrel : releasedSince (e :: tr) item = releasedSince tr item := by
      refine total_congr hg fun g _ => ?_
      rw [hsince, released_cons, he.released]
      rfl
    rw [hunits, lastSet_cons_of_none (he.sets item), hacc, hrel]
    exact h.level item
  case nonneg =>
    intro item
    rw [hunits]
    exact h.nonneg item
  case unset =>
    intro item
    rw [hs, hunits, hg]
    exact h.unset item
  case balance =>
    intro item q
    have hcomm : committedQty (e :: tr) item = committedQty tr item :=
      total_congr hg fun g _ => by rw [hc]
    have hopenQty : openQty (e :: tr) item = openQty tr item := total_congr hg fun g _ => hopen g
    rw [hs, hunits, hcomm, hopenQty]
    exact h.balance item q

theorem LedgerInv.set (h : LedgerInv tr redis) (warehouseId : WarehouseId) (sku : Sku) {qty : Int}
    (hqty : 0 ≤ qty) :
    LedgerInv (⟨.setStock warehouseId sku qty, .done⟩ :: tr) (setStock redis warehouseId sku qty) := by
  have hentries : ∀ id, (setStock redis warehouseId sku qty).entries (reservationKey id) =
      redis.entries (reservationKey id) := by
    intro id
    rw [setStock, Redis.set, Redis.entries_put, if_neg (stockKey_ne_reservationKey _ _ _).symm]
  have hsets : ∀ item, (Event.mk (.setStock warehouseId sku qty) .done).sets item =
      if itemName warehouseId sku = item then some qty else none := fun item => rfl
  refine
    { now := h.now
      ids := h.ids
      pos := h.pos
      once := h.once
      granted := h.granted
      answered := List.forall_mem_cons.mpr ⟨trivial, h.answered⟩
      entry := fun g hmem ho => (hentries _).trans (h.entry g hmem ho)
      noEntry := fun id hid => (hentries _).trans (h.noEntry id hid)
      persistent := ?persistent
      level := ?level
      nonneg := ?nonneg
      unset := ?unset
      balance := ?balance }
  case persistent =>
    intro item e he
    rw [setStock, Redis.set, Redis.entries_put] at he
    split at he
    · rw [← Option.some.inj he]
    · exact h.persistent item e he
  case level =>
    intro item
    rw [setStock, units_set]
    by_cases hi : itemName warehouseId sku = item
    · have hs := (hsets item).trans (if_pos hi)
      have hacc : acceptedSince (⟨.setStock warehouseId sku qty, .done⟩ :: tr) item = 0 := by
        rw [acceptedSince, since_cons_of_some hs]
        rfl
      have hrel : releasedSince (⟨.setStock warehouseId sku qty, .done⟩ :: tr) item = 0 := by
        rw [releasedSince, since_cons_of_some hs]
        exact total_of_none fun g _ _ hg => by cases hg
      rw [if_pos hi.symm, lastSet_cons_of_some hs, hacc, hrel]
      omega
    · have hs := (hsets item).trans (if_neg hi)
      rw [if_neg (Ne.symm hi), lastSet_cons_of_none hs, acceptedSince, releasedSince,
        since_cons_of_none hs]
      exact h.level item
  case nonneg =>
    intro item
    rw [setStock, units_set]
    split
    · exact hqty
    · exact h.nonneg item
  case unset =>
    intro item hnone
    rw [sets_cons, hsets] at hnone
    split at hnone
    · cases hnone
    · rename_i hi
      rw [setStock, units_set, if_neg (Ne.symm hi)]
      exact h.unset item hnone
  case balance =>
    intro item q hone
    rw [sets_cons, hsets] at hone
    rw [setStock, units_set]
    by_cases hi : itemName warehouseId sku = item
    · -- the first time that the counter is set, nothing of the item is reserved
      rw [if_pos hi] at hone
      obtain ⟨rfl, hnone⟩ := List.cons.inj hone
      have hno : ∀ g ∈ grants (⟨.setStock warehouseId sku qty, .done⟩ :: tr), g.item ≠ item :=
        (h.unset item hnone).2
      rw [if_pos hi.symm, committedQty, openQty, total_of_none fun g hmem heq => absurd heq (hno g hmem),
        total_of_none fun g hmem heq => absurd heq (hno g hmem), add_zero, add_zero]
    · rw [if_neg hi] at hone
      rw [if_neg (Ne.symm hi)]
      exact h.balance item q hone

theorem LedgerInv.grant_of_held (h : LedgerInv tr redis) {id : ReservationId} {q : Int}
    (hq : held redis id = some q) :
    ∃ g ∈ grants tr, g.id = id ∧ Open tr g ∧ g.qty = q ∧ clock tr < g.expireAt := by
  have hex : ∃ g ∈ grants tr, g.id = id ∧ Open tr g := by
    by_contra hno
    have hnone := h.noEntry id fun g hmem heq ho => hno ⟨g, hmem, heq, ho⟩
    simp [held, Redis.lookup, hnone] at hq
  obtain ⟨g, hmem, rfl, ho⟩ := hex
  have hentry := h.entry g hmem ho
  simp only [held, Redis.lookup, hentry, Option.map_eq_some_iff, Option.filter_eq_some_iff,
    Option.some.injEq] at hq
  obtain ⟨e, ⟨rfl, hlive⟩, hval⟩ := hq
  rw [Entry.live_some, h.now, decide_eq_true_eq] at hlive
  exact ⟨g, hmem, rfl, ho, hval, hlive⟩

theorem LedgerInv.accept (h : LedgerInv tr redis) {warehouseId : WarehouseId} {sku : Sku}
    {qty ttl remaining : Int} {id : ReservationId} (hq : 0 < qty)
    (hle : qty ≤ units redis (itemName warehouseId sku)) (hfresh : ∀ g ∈ grants tr, g.id ≠ id) :
    LedgerInv
      (⟨.reserve warehouseId sku qty ttl id, .reserved (.ok (.accepted id remaining))⟩ :: tr)
      ((redis.incrBy (stockKey warehouseId sku) (-qty)).setEx (reservationKey id) qty ttl.toNat) := by
  let g : Grant := ⟨⟨warehouseId, sku, id⟩, qty, clock tr + 1000 * ttl.toNat⟩
  let e : Event := ⟨.reserve warehouseId sku qty ttl id, .reserved (.ok (.accepted id remaining))⟩
  have hg : grants (e :: tr) = g :: grants tr := rfl
  have hsets : ∀ item, e.sets item = none := fun _ => rfl
  have hnew : id ∉ released tr ++ committed tr := by
    intro hmem
    obtain ⟨g', hg', heq⟩ := h.granted id hmem
    exact hfresh g' hg' heq
  have hopen : ∀ g', Open (e :: tr) g' ↔ Open tr g' := fun _ => Iff.rfl
  have hg_open : Open tr g := by
    rw [List.mem_append, not_or] at hnew
    exact hnew
  have hentries : ∀ x, ((redis.incrBy (stockKey warehouseId sku) (-qty)).setEx (reservationKey id) qty
      ttl.toNat).entries (reservationKey x) =
        if x = id then some ⟨qty, some g.expireAt⟩ else redis.entries (reservationKey x) := by
    intro x
    rw [Redis.setEx, Redis.entries_put]
    by_cases hx : x = id
    · simp [hx, g, h.now]
    · rw [if_neg hx, if_neg fun heq => hx (reservationKey_inj.mp heq),
        Redis.entries_incrBy_of_ne (stockKey_ne_reservationKey _ _ _).symm]
  have hunits : ∀ item, units ((redis.incrBy (stockKey warehouseId sku) (-qty)).setEx
      (reservationKey id) qty ttl.toNat) item = units redis item - if g.item = item then qty else 0 := by
    intro item
    rw [units_setEx, units_incrBy]
    by_cases hi : itemName warehouseId sku = item
    · rw [if_pos hi.symm, if_pos hi]
      omega
    · rw [if_neg (Ne.symm hi), if_neg hi]
      omega
  refine
    { now := ?now
      ids := ?ids
      pos := List.forall_mem_cons.mpr ⟨hq, h.pos⟩
      once := h.once
      granted := ?granted
      answered := List.forall_mem_cons.mpr ⟨trivial, h.answered⟩
      entry := ?entry
      noEntry := ?noEntry
      persistent := ?persistent
      level := ?level
      nonneg := ?nonneg
      unset := ?unset
      balance := ?balance }
  case now =>
    rw [Redis.setEx, Redis.now_put, Redis.now_incrBy]
    exact h.now
  case ids =>
    rw [hg, List.map_cons, List.nodup_cons]
    refine ⟨fun hmem => ?_, h.ids⟩
    obtain ⟨g', hg', heq⟩ := List.mem_map.mp hmem
    exact hfresh g' hg' heq
  case granted =>
    intro x hx
    obtain ⟨g', hg', heq⟩ := h.granted x hx
    exact ⟨g', List.mem_cons_of_mem _ hg', heq⟩
  case entry =>
    intro g' hmem ho
    rw [hentries]
    rcases List.mem_cons.mp hmem with rfl | hmem
    · rw [if_pos rfl]
    · rw [if_neg (hfresh g' hmem)]
      exact h.entry g' hmem ho
  case noEntry =>
    intro x hx
    rw [hentries]
    by_cases hxid : x = id
    · exact absurd hg_open (hx g List.mem_cons_self hxid.symm)
    · rw [if_neg hxid]
      exact h.noEntry x fun g' hmem heq => hx g' (List.mem_cons_of_mem _ hmem) heq
  case persistent =>
    intro item e' he'
    rw [Redis.setEx, Redis.entries_put, if_neg (stock_prefix_ne _ _)] at he'
    exact Redis.expireAt_incrBy (h.persistent item) _ e' he'
  case level =>
    intro item
    have hsince : since (e :: tr) item = e :: since tr item := since_cons_of_none (hsets item)
    have hacc : acceptedSince (e :: tr) item =
        acceptedSince tr item + if g.item = item then qty else 0 := by
      let g₁ : Grant := ⟨⟨warehouseId, sku, id⟩, qty, clock (since tr item) + 1000 * ttl.toNat⟩
      have hg₁ : grants (e :: since tr item) = g₁ :: grants (since tr item) := rfl
      have hsum : acceptedSince (e :: tr) item =
          acceptedSince tr item + if g₁.item = item ∧ True then qty else 0 := by
        rw [acceptedSince, acceptedSince, hsince]
        exact total_accept hg₁ fun _ _ => Iff.rfl
      simpa using hsum
    have hrel : releasedSince (e :: tr) item = releasedSince tr item := by
      have hnot : g.id ∉ released (since tr item) := fun hmem =>
        hnew (List.mem_append_left _ (released_since hmem))
      have hsum : releasedSince (e :: tr) item = releasedSince tr item +
          if g.item = item ∧ g.id ∈ released (since tr item) then g.qty else 0 := by
        rw [releasedSince, hsince]
        exact total_accept hg fun _ _ => Iff.rfl
      rwa [if_neg fun hand => hnot hand.2, add_zero] at hsum
    have := h.level item
    rw [hunits, lastSet_cons_of_none (hsets item), hacc, hrel]
    omega
  case nonneg =>
    intro item
    have := h.nonneg item
    rw [hunits]
    by_cases hi : g.item = item
    · rw [if_pos hi, ← hi]
      exact sub_nonneg.mpr hle
    · rw [if_neg hi]
      omega
  case unset =>
    intro item hnone
    obtain ⟨hzero, hno⟩ := h.unset item hnone
    have hi : g.item ≠ item := by
      rintro rfl
      have : qty ≤ 0 := hzero ▸ hle
      omega
    refine ⟨by rw [hunits, if_neg hi, hzero, sub_zero], ?_⟩
    exact List.forall_mem_cons.mpr ⟨hi, hno⟩
  case balance =>
    intro item q hone
    have hbal := h.balance item q hone
    have hopenQty : openQty (e :: tr) item = openQty tr item + if g.item = item ∧ Open tr g then g.qty else 0 :=
      total_accept hg fun g' _ => hopen g'
    have hcomm : committedQty (e :: tr) item = committedQty tr item := by
      have hsum : committedQty (e :: tr) item = committedQty tr item +
          if g.item = item ∧ g.id ∈ committed tr then g.qty else 0 :=
        total_accept hg fun _ _ => Iff.rfl
      rwa [if_neg fun hand => hg_open.2 hand.2, add_zero] at hsum
    rw [hunits, hopenQty, hcomm]
    by_cases hi : g.item = item
    · rw [if_pos hi, if_pos ⟨hi, hg_open⟩]
      show units redis item - qty + (openQty tr item + qty) + committedQty tr item = q
      omega
    · rw [if_neg hi, if_neg fun hand => hi hand.1]
      omega

/-- A live reservation is resolved, and its quantity goes back if `back`. -/
theorem LedgerInv.resolve (h : LedgerInv tr redis) {g : Grant} (hmem : g ∈ grants tr)
    (ho : Open tr g) (ha : e.Answered) (hsets : ∀ item, e.sets item = none)
    (hgrant : ∀ now, e.grant now = none) (hms : e.ms = 0) (back : Bool)
    (hrel : e.released = if back then some g.id else none)
    (hcom : e.committed = if back then none else some g.id) (hnow : redis'.now = redis.now)
    (hentries : ∀ x, redis'.entries (reservationKey x) =
      if x = g.id then none else redis.entries (reservationKey x))
    (hpersistent : ∀ item e, redis'.entries ("stock:" ++ item) = some e → e.expireAt = none)
    (hunits : ∀ item, units redis' item =
      units redis item + if g.item = item ∧ back = true then g.qty else 0) :
    LedgerInv (e :: tr) redis' := by
  have hg : grants (e :: tr) = grants tr := by simp [grants, hgrant]
  have hids : ((grants (e :: tr)).map Grant.id).Nodup := hg ▸ h.ids
  have hr : ∀ x, x ∈ released (e :: tr) ↔ back = true ∧ x = g.id ∨ x ∈ released tr := by
    intro x
    rw [released_cons, hrel]
    cases back <;> simp
  have hc : ∀ x, x ∈ committed (e :: tr) ↔ back = false ∧ x = g.id ∨ x ∈ committed tr := by
    intro x
    rw [committed_cons, hcom]
    cases back <;> simp
  have hopen : ∀ g', Open (e :: tr) g' ↔ Open tr g' ∧ g'.id ≠ g.id := by
    intro g'
    rw [Open, Open, hr, hc]
    cases back <;> simp <;> tauto
  have hsince : ∀ item, since (e :: tr) item = e :: since tr item := fun item =>
    since_cons_of_none (hsets item)
  have hperm : (released (e :: tr) ++ committed (e :: tr)).Perm
      (g.id :: (released tr ++ committed tr)) := by
    rw [released_cons, committed_cons, hrel, hcom]
    cases back <;> simp
  have hfresh : g.id ∉ released tr ++ committed tr := by
    rw [List.mem_append, not_or]
    exact ho
  refine
    { now := ?now
      ids := hids
      pos := hg ▸ h.pos
      once := ?once
      granted := ?granted
      answered := List.forall_mem_cons.mpr ⟨ha, h.answered⟩
      entry := ?entry
      noEntry := ?noEntry
      persistent := hpersistent
      level := fun item => ?level
      nonneg := ?nonneg
      unset := ?unset
      balance := ?balance }
  case now =>
    rw [hnow, h.now, clock, hms, add_zero]
  case once =>
    rw [hperm.nodup_iff, List.nodup_cons]
    exact ⟨hfresh, h.once⟩
  case granted =>
    intro x hx
    rw [hg]
    rcases List.mem_cons.mp (hperm.mem_iff.mp hx) with rfl | hx
    · exact ⟨g, hmem, rfl⟩
    · exact h.granted x hx
  case entry =>
    intro g' hmem' ho'
    obtain ⟨ho', hne⟩ := (hopen g').mp ho'
    rw [hentries, if_neg hne]
    exact h.entry g' (hg ▸ hmem') ho'
  case noEntry =>
    intro x hx
    rw [hentries]
    by_cases hxg : x = g.id
    · rw [if_pos hxg]
    · rw [if_neg hxg]
      refine h.noEntry x fun g' hmem' heq ho' => ?_
      exact hx g' (hg ▸ hmem') heq ((hopen g').mpr ⟨ho', heq ▸ hxg⟩)
  case level =>
    have hacc : acceptedSince (e :: tr) item = acceptedSince tr item := by
      rw [acceptedSince, acceptedSince, hsince]
      exact total_congr (by simp [grants, hgrant]) fun _ _ => Iff.rfl
    have hreleased : releasedSince (e :: tr) item =
        releasedSince tr item + if g.item = item ∧ back = true then g.qty else 0 := by
      have hnot : g.id ∉ released (since tr item) := fun hm => ho.1 (released_since hm)
      have hiff : ∀ x, x ∈ released (since (e :: tr) item) ↔
          back = true ∧ x = g.id ∨ x ∈ released (since tr item) := by
        intro x
        rw [hsince, released_cons, hrel]
        cases back <;> simp
      refine total_move h.ids hmem hg (fun g' _ hne => ?_) hnot ?_
      · rw [hiff]
        simp [hne]
      · rw [hiff]
        simp [hnot]
    have := h.level item
    rw [hunits, lastSet_cons_of_none (hsets item), hacc, hreleased]
    omega
  case nonneg =>
    intro item
    have := h.nonneg item
    have := h.pos g hmem
    rw [hunits]
    split <;> omega
  case unset =>
    intro item hnone
    rw [sets_cons, hsets] at hnone
    obtain ⟨hzero, hno⟩ := h.unset item hnone
    rw [hunits, if_neg fun hand => hno g hmem hand.1, hzero, hg]
    exact ⟨rfl, hno⟩
  case balance =>
    intro item q hone
    rw [sets_cons, hsets] at hone
    have hbal := h.balance item q hone
    have hopenQty : openQty tr item = openQty (e :: tr) item + if g.item = item then g.qty else 0 :=
      openQty_resolve hids (hg ▸ hmem) ho hg hopen
    have hcomm : committedQty (e :: tr) item =
        committedQty tr item + if g.item = item ∧ back = false then g.qty else 0 := by
      refine total_move h.ids hmem hg (fun g' _ hne => ?_) ho.2 ?_
      · rw [hc]
        simp [hne]
      · rw [hc]
        simp [ho.2]
    rw [hunits, hcomm]
    by_cases hi : g.item = item <;> cases back <;> simp only [hi, true_and, false_and, if_true,
      if_false, Bool.false_eq_true, Bool.true_eq_false] at hopenQty ⊢ <;> omega

end Steps

/-! ## Runs -/

section Runs

variable {tr : Trace} {redis : Redis}

theorem LedgerInv.start : LedgerInv [] Redis.empty where
  now := rfl
  ids := List.nodup_nil
  pos _ hg := by cases hg
  once := List.nodup_nil
  granted _ hid := by cases hid
  answered _ he := by cases he
  entry _ hg := by cases hg
  noEntry _ _ := rfl
  persistent _ _ he := by cases he
  level _ := rfl
  nonneg _ := le_refl 0
  unset _ _ := ⟨rfl, fun _ hg => by cases hg⟩
  balance _ _ h := by cases h

/-- A release or a commit finds an open reservation of the pair that it names, or nothing. -/
theorem LedgerInv.resolves (h : LedgerInv tr redis) {warehouseId : WarehouseId} {sku : Sku}
    {id : ReservationId}
    (ha : ∀ g ∈ grants tr, g.id = id → g.reservation = ⟨warehouseId, sku, id⟩) :
    held redis id = none ∨ ∃ g ∈ grants tr, g.reservation = ⟨warehouseId, sku, id⟩ ∧ Open tr g ∧
      held redis id = some g.qty := by
  cases hq : held redis id with
  | none => exact Or.inl rfl
  | some q =>
    obtain ⟨g, hmem, hid, ho, rfl, -⟩ := h.grant_of_held hq
    exact Or.inr ⟨g, hmem, ha g hmem hid, ho, rfl⟩

theorem LedgerInv.release_step (h : LedgerInv tr redis) {warehouseId : WarehouseId} {sku : Sku}
    {id : ReservationId}
    (ha : ∀ g ∈ grants tr, g.id = id → g.reservation = ⟨warehouseId, sku, id⟩) :
    LedgerInv (⟨.release warehouseId sku id, ((Op.release warehouseId sku id).run redis).2⟩ :: tr)
      ((Op.release warehouseId sku id).run redis).1 := by
  rcases h.resolves ha with hnone | ⟨g, hmem, hg, ho, hheld⟩
  · simp only [Op.run, release_of_none hnone]
    exact h.quiet ⟨fun _ => rfl, fun _ => rfl, rfl, rfl⟩ (Or.inr rfl) rfl rfl
  · have hid : g.id = id := by rw [Grant.id, hg]
    have hitem : g.item = itemName warehouseId sku := by rw [Grant.item, hg]
    simp only [Op.run, release_of_some hheld]
    refine h.resolve hmem ho (Or.inl rfl) (fun _ => rfl) (fun _ => rfl) rfl true
      (by rw [hid]; rfl) rfl (Redis.now_incrBy _) (fun x => ?_) ?_ fun item => ?_
    · rw [Redis.entries_incrBy_of_ne (stockKey_ne_reservationKey _ _ _).symm, Redis.del,
        Redis.entries_put, hid]
      simp only [reservationKey_inj]
    · intro item
      refine Redis.expireAt_incrBy (fun e he => h.persistent item e ?_) _
      rwa [Redis.del, Redis.entries_put, if_neg (stock_prefix_ne _ _)] at he
    · rw [units_incrBy, units_del, hitem]
      simp [eq_comm]

theorem LedgerInv.commit_step (h : LedgerInv tr redis) {warehouseId : WarehouseId} {sku : Sku}
    {id : ReservationId}
    (ha : ∀ g ∈ grants tr, g.id = id → g.reservation = ⟨warehouseId, sku, id⟩) :
    LedgerInv (⟨.commit warehouseId sku id, ((Op.commit warehouseId sku id).run redis).2⟩ :: tr)
      ((Op.commit warehouseId sku id).run redis).1 := by
  rcases h.resolves ha with hnone | ⟨g, hmem, hg, ho, hheld⟩
  · simp only [Op.run, commit_of_none hnone]
    exact h.quiet ⟨fun _ => rfl, fun _ => rfl, rfl, rfl⟩ (Or.inr rfl) rfl rfl
  · have hid : g.id = id := by rw [Grant.id, hg]
    simp only [Op.run, commit_of_some hheld]
    refine h.resolve hmem ho (Or.inl rfl) (fun _ => rfl) (fun _ => rfl) rfl false rfl
      (by rw [hid]; rfl) rfl (fun x => ?_) ?_ fun item => ?_
    · rw [Redis.del, Redis.entries_put, hid]
      simp only [reservationKey_inj]
    · intro item e he
      rw [Redis.del, Redis.entries_put, if_neg (stock_prefix_ne _ _)] at he
      exact h.persistent item e he
    · simp

theorem LedgerInv.step (h : LedgerInv tr redis) (op : Op) (ha : Admissible tr op) :
    LedgerInv (⟨op, (op.run redis).2⟩ :: tr) (op.run redis).1 := by
  cases op with
  | setStock warehouseId sku qty => exact h.set warehouseId sku ha.2
  | reserve warehouseId sku qty ttl id =>
    obtain ⟨ht, hfresh⟩ := ha
    rcases reserve_cases redis warehouseId sku qty ht id with
      ⟨reason, remaining, hrej, -⟩ | ⟨hq, hle, hok⟩
    · simp only [Op.run, hrej]
      exact h.quiet ⟨fun _ => rfl, fun _ => rfl, rfl, rfl⟩ trivial rfl rfl
    · simp only [Op.run, hok]
      exact h.accept hq hle hfresh
  | release warehouseId sku id => exact h.release_step ha.2
  | commit warehouseId sku id => exact h.commit_step ha.2
  | elapse ms => exact h.quiet ⟨fun _ => rfl, fun _ => rfl, rfl, rfl⟩ trivial rfl rfl

theorem Run.inv (h : Run tr redis) : LedgerInv tr redis := by
  induction h with
  | start => exact LedgerInv.start
  | step _ op ha ih => exact ih.step op ha

/-- The open reservations are live or lapsed. -/
theorem open_split (tr : Trace) (item : String) :
    openQty tr item = liveQty tr item + total tr item (Lapsed tr) := by
  refine total_split (fun g _ => ?_) fun g _ hl hlapsed => ?_
  · rw [Live, Lapsed, ← and_or_left]
    exact ⟨fun ho => ⟨ho, Nat.lt_or_ge _ _⟩, And.left⟩
  · exact absurd hl.2 (Nat.not_lt.mpr hlapsed.2)

/-- There are only counters and reservations. -/
theorem Run.keys (h : Run tr redis) (key : String) (hkey : redis.entries key ≠ none) :
    (∃ item, key = "stock:" ++ item) ∨ ∃ id, key = reservationKey id := by
  have hput : ∀ {r : Redis} {key' : String} {e : Option Entry}, (r.put key' e).entries key ≠ none →
      key = key' ∨ r.entries key ≠ none := by
    intro r key' e hne
    by_cases heq : key = key'
    · exact Or.inl heq
    · rw [Redis.entries_put, if_neg heq] at hne
      exact Or.inr hne
  have hincr : ∀ {r : Redis} {key' : String} {n : Int}, (r.incrBy key' n).entries key ≠ none →
      key = key' ∨ r.entries key ≠ none := by
    intro r key' n hne
    by_cases heq : key = key'
    · exact Or.inl heq
    · rw [Redis.entries_incrBy_of_ne heq] at hne
      exact Or.inr hne
  induction h with
  | start => exact absurd rfl hkey
  | @step tr r hrun op ha ih =>
    cases op with
    | setStock w s qty =>
      rcases hput hkey with rfl | hold
      · exact Or.inl ⟨_, stockKey_eq⟩
      · exact ih hold
    | reserve w s qty ttl id =>
      obtain ⟨ht, -⟩ := ha
      rcases reserve_cases r w s qty ht id with ⟨reason, remaining, hrej, -⟩ | ⟨hq, hle, hok⟩
      · simp only [Op.run, hrej] at hkey
        exact ih hkey
      · simp only [Op.run, hok] at hkey
        rcases hput hkey with rfl | hold
        · exact Or.inr ⟨id, rfl⟩
        · rcases hincr hold with rfl | hold
          · exact Or.inl ⟨_, stockKey_eq⟩
          · exact ih hold
    | release w s id =>
      rcases hrun.inv.resolves ha.2 with hnone | ⟨g, -, -, -, hheld⟩
      · simp only [Op.run, release_of_none hnone] at hkey
        exact ih hkey
      · simp only [Op.run, release_of_some hheld] at hkey
        rcases hincr hkey with rfl | hold
        · exact Or.inl ⟨_, stockKey_eq⟩
        · rcases hput hold with rfl | hold
          · exact Or.inr ⟨id, rfl⟩
          · exact ih hold
    | commit w s id =>
      rcases hrun.inv.resolves ha.2 with hnone | ⟨g, -, -, -, hheld⟩
      · simp only [Op.run, commit_of_none hnone] at hkey
        exact ih hkey
      · simp only [Op.run, commit_of_some hheld] at hkey
        rcases hput hkey with rfl | hold
        · exact Or.inr ⟨id, rfl⟩
        · exact ih hold
    | elapse ms => exact ih hkey

end Runs

end SupplyChain
