import SupplyChain.Collections.Proofs.SumProofs
import SupplyChain.Inventory.Proofs.InventoryServiceProofs
import SupplyChain.Orders.Accounts

/-!
# Proofs: every call keeps the accounts
-/

namespace SupplyChain

open InventoryService Collections

/-! ## Demand -/

@[simp] theorem demand_nil (item : String) : demand [] item = 0 := rfl

@[simp] theorem demand_append (bs cs : List Booking) (item : String) :
    demand (bs ++ cs) item = demand bs item + demand cs item := by
  simp [demand]

@[simp] theorem demand_singleton (b : Booking) (item : String) :
    demand [b] item = if b.item = item then b.qty else 0 := by
  simp [demand]

@[simp] theorem lineDemand_append (ls ms : List OrderLine) (item : String) :
    lineDemand (ls ++ ms) item = lineDemand ls item + lineDemand ms item := by
  simp [lineDemand]

@[simp] theorem lineDemand_cons (l : OrderLine) (ls : List OrderLine) (item : String) :
    lineDemand (l :: ls) item = (if l.item = item then l.qty else 0) + lineDemand ls item := by
  simp [lineDemand]

theorem lineDemand_nonneg {ls : List OrderLine} (h : ∀ l ∈ ls, 0 < l.qty) (item : String) :
    0 ≤ lineDemand ls item := by
  induction ls with
  | nil => exact le_refl 0
  | cons l ls ih =>
    have hl := h l List.mem_cons_self
    have := ih fun m hm => h m (List.mem_cons_of_mem _ hm)
    rw [lineDemand_cons]
    split <;> omega

theorem Fills.demand {lines : List OrderLine} {bs : List Booking} (h : Fills lines bs)
    (item : String) : demand bs item = lineDemand lines item := by
  unfold Fills at h
  subst h
  simp [SupplyChain.demand, lineDemand, Function.comp_def]

/-! ## Tied quantities -/

section Tied

variable {redis : Redis} {g : Progress} {item : String}

/-- If every booking is released and none is committed, nothing is tied. -/
theorem tied_of_gone (h : ∀ b ∈ g.taken, held redis b.id = none) (hc : g.committed = []) :
    g.tied redis item = 0 := by
  have hzero : ∀ b ∈ g.taken, b.tied redis g.committed item = 0 := by
    intro b hb
    simp [Booking.tied, h b hb, hc]
  rw [Progress.tied, List.map_congr_left hzero]
  simp

/-- If every booking is live or committed, everything is tied. -/
theorem tied_of_kept (h : ∀ b ∈ g.taken, (held redis b.id).isSome ∨ b.id ∈ g.committed) :
    g.tied redis item = demand g.taken item := by
  have hall : ∀ b ∈ g.taken, b.tied redis g.committed item = if b.item = item then b.qty else 0 := by
    intro b hb
    simp [Booking.tied, h b hb]
  rw [Progress.tied, List.map_congr_left hall]
  rfl

/-- Bookings of positive quantities tie up at least nothing and at most what was booked. -/
theorem tied_bounds (redis : Redis) (item : String) (hpos : ∀ b ∈ g.taken, 0 < b.qty) :
    0 ≤ g.tied redis item ∧ g.tied redis item ≤ demand g.taken item := by
  have hle : ∀ (bs : List Booking), (∀ b ∈ bs, 0 < b.qty) →
      0 ≤ (bs.map fun b => b.tied redis g.committed item).sum ∧
        (bs.map fun b => b.tied redis g.committed item).sum ≤ demand bs item := by
    intro bs hbs
    induction bs with
    | nil => simp
    | cons b bs ih =>
      have hb := hbs b List.mem_cons_self
      have hrest := ih fun c hc => hbs c (List.mem_cons_of_mem _ hc)
      have hone : 0 ≤ b.tied redis g.committed item ∧
          b.tied redis g.committed item ≤ if b.item = item then b.qty else 0 := by
        unfold Booking.tied
        by_cases hi : b.item = item <;> simp only [hi, true_and, false_and, if_true, if_false]
        · split <;> omega
        · omega
      have hd : demand (b :: bs) item = (if b.item = item then b.qty else 0) + demand bs item := rfl
      simp only [List.map_cons, List.sum_cons, hd]
      omega
  exact hle g.taken hpos

theorem tied_congr {redis' : Redis} {g' : Progress} (ht : g'.taken = g.taken)
    (hc : g'.committed = g.committed)
    (hl : ∀ b ∈ g.taken, held redis' b.id = held redis b.id) :
    g'.tied redis' item = g.tied redis item := by
  rw [Progress.tied, Progress.tied, ht, hc]
  refine congrArg List.sum (List.map_congr_left fun b hb => ?_)
  simp [Booking.tied, hl b hb]

end Tied

/-! ## Ids -/

theorem unused_draw (uuids : UuidSource) (drawn : Nat) : Unused uuids drawn (uuids.draw drawn) :=
  ⟨drawn, le_rfl, rfl⟩

theorem Unused.of_succ {uuids : UuidSource} {drawn : Nat} {id : ReservationId}
    (h : Unused uuids (drawn + 1) id) : Unused uuids drawn id := by
  obtain ⟨n, hn, rfl⟩ := h
  exact ⟨n, by omega, rfl⟩

theorem not_unused_draw (uuids : UuidSource) (drawn : Nat) :
    ¬ Unused uuids (drawn + 1) (uuids.draw drawn) := by
  rintro ⟨n, hn, h⟩
  have := uuids.injective h
  omega

/-! ## The stock -/

variable {ι : Type}

/-- An update of one execution's progress that keeps `p` keeps `p` of all. -/
theorem update_proj [DecidableEq ι] {β : Type} {gs : ι → Progress} {i : ι} {g : Progress}
    (p : Progress → β) (h : p g = p (gs i)) (j : ι) : p (Function.update gs i g j) = p (gs j) := by
  by_cases hj : j = i
  · subst hj
    simpa using h
  · rw [Function.update_of_ne hj]

namespace StockInv

variable [Fintype ι] {level : String → Int} {before : ReservationId → Option Int}
  {unused unused' : ReservationId → Prop} {redis redis' : Redis} {gs gs' : ι → Progress}

theorem congr (h : StockInv level before unused redis gs) (ht : ∀ i, (gs' i).taken = (gs i).taken)
    (hr : ∀ i, (gs' i).released = (gs i).released)
    (hc : ∀ i, (gs' i).committed = (gs i).committed) : StockInv level before unused redis gs' where
  own i := ht i ▸ h.own i
  apart {i j} b b' hb hb' := h.apart (ht i ▸ hb) (ht j ▸ hb')
  used {i} b hb := h.used (ht i ▸ hb)
  vacant := h.vacant
  qty {i} b q hb := h.qty (ht i ▸ hb)
  gone {i} b hb := by
    rw [hr, hc]
    exact h.gone (ht i ▸ hb)
  others hid := h.others fun i b hb => hid i b (ht i ▸ hb)
  conserved item := by
    rw [← h.conserved item]
    congr 1
    exact Finset.sum_congr rfl fun i _ => tied_congr (ht i) (hc i) fun _ _ => rfl

/-- The stock account does not depend on what is not looked up. -/
theorem lookups (h : StockInv level before unused redis gs)
    (hl : ∀ key, redis'.lookup key = redis.lookup key) (hu : ∀ id, unused' id → unused id) :
    StockInv level before unused' redis' gs where
  own := h.own
  apart := h.apart
  used hb hid := h.used hb (hu _ hid)
  vacant hid := h.vacant (hu _ hid)
  qty hb hq := h.qty hb (by rw [held, ← hl]; exact hq)
  gone hb hg := by
    rw [held, hl]
    exact h.gone hb hg
  others hid := by
    rw [held, hl]
    exact h.others hid
  conserved item := by
    rw [← h.conserved item, units, units, hl]
    congr 1
    exact Finset.sum_congr rfl fun i _ => tied_congr rfl rfl fun b _ => by rw [held, held, hl]

variable [DecidableEq ι]

theorem accept (h : StockInv level before unused redis gs) {i : ι} {b : Booking}
    (hid : unused b.id) (hid' : ¬ unused' b.id) (hsub : ∀ id, unused' id → unused id)
    (hheld : ∀ id, held redis' id = if id = b.id then some b.qty else held redis id)
    (hunits : ∀ item, units redis' item =
      units redis item - if b.item = item then b.qty else 0)
    {g : Progress} (hg : g = { gs i with taken := (gs i).taken ++ [b] }) (hc : b.id ∉ (gs i).released)
    (hc' : b.id ∉ (gs i).committed) :
    StockInv level before unused' redis' (Function.update gs i g) := by
  have hfresh : ∀ {j c}, c ∈ (gs j).taken → c.id ≠ b.id := fun hj hne => h.used hj (hne ▸ hid)
  have hsame : ∀ {j c}, c ∈ (gs j).taken → held redis' c.id = held redis c.id := by
    intro j c hj
    rw [hheld, if_neg (hfresh hj)]
  have hmem : ∀ {j c}, c ∈ (Function.update gs i g j).taken →
      c ∈ (gs j).taken ∨ (j = i ∧ c = b) := by
    intro j c hcj
    by_cases hj : j = i
    · subst hj
      subst hg
      simpa using hcj
    · rw [Function.update_of_ne hj] at hcj
      exact Or.inl hcj
  have hr : ∀ j, (Function.update gs i g j).released = (gs j).released :=
    update_proj Progress.released (by rw [hg])
  have hcm : ∀ j, (Function.update gs i g j).committed = (gs j).committed :=
    update_proj Progress.committed (by rw [hg])
  refine
    { own := fun j => ?own
      apart := ?apart
      used := ?used
      vacant := fun hx => h.vacant (hsub _ hx)
      qty := ?qty
      gone := ?gone
      others := ?others
      conserved := fun item => ?conserved }
  case own =>
    by_cases hj : j = i
    · subst hj
      subst hg
      simp only [Function.update_self, List.map_append, List.map_cons, List.map_nil]
      rw [List.nodup_append]
      refine ⟨h.own j, List.nodup_singleton _, ?_⟩
      rintro _ hm x hx rfl
      obtain ⟨c, hc, hcx⟩ := List.mem_map.mp hm
      exact hfresh hc (hcx.trans (List.mem_singleton.mp hx))
    · rw [Function.update_of_ne hj]
      exact h.own j
  case apart =>
    intro j k c c' hcj hck heq
    rcases hmem hcj with h₁ | ⟨hj, rfl⟩ <;> rcases hmem hck with h₂ | ⟨hk, rfl⟩
    · exact h.apart h₁ h₂ heq
    · exact absurd heq (hfresh h₁)
    · exact absurd heq.symm (hfresh h₂)
    · rw [hj, hk]
  case used =>
    intro j c hcj
    rcases hmem hcj with hcj | ⟨rfl, rfl⟩
    · exact fun hx => h.used hcj (hsub _ hx)
    · exact hid'
  case qty =>
    intro j c q hcj hq
    rcases hmem hcj with hcj | ⟨rfl, rfl⟩
    · exact h.qty hcj (hsame hcj ▸ hq)
    · rw [hheld, if_pos rfl] at hq
      exact (Option.some.inj hq).symm
  case gone =>
    intro j c hcj hgone
    rw [hr, hcm] at hgone
    rcases hmem hcj with hcj | ⟨rfl, rfl⟩
    · rw [hsame hcj]
      exact h.gone hcj hgone
    · exact absurd hgone (not_or.mpr ⟨hc, hc'⟩)
  case others =>
    intro id hother
    have hb : b.id ≠ id := hother i b (by simp [hg])
    rw [hheld, if_neg hb.symm]
    refine h.others fun j c hcj => hother j c ?_
    by_cases hj : j = i
    · subst hj
      simp [hg, hcj]
    · rwa [Function.update_of_ne hj]
  case conserved =>
    have hsum := sum_change (fun j => (gs j).tied redis item)
      (fun j => (Function.update gs i g j).tied redis' item) i fun j hj => by
        rw [Function.update_of_ne hj]
        exact tied_congr rfl rfl fun c hcj => hsame hcj
    have hi : g.tied redis' item = (gs i).tied redis item + if b.item = item then b.qty else 0 := by
      have hold : (gs i).tied redis' item = (gs i).tied redis item :=
        tied_congr rfl rfl fun c hcj => hsame hcj
      rw [← hold, hg]
      simp [Progress.tied, Booking.tied, hheld]
    have := h.conserved item
    rw [hsum, Function.update_self, hi, hunits]
    omega

/-- A booking of execution `i` is released by execution `k`. -/
theorem release (h : StockInv level before unused redis gs) {i k : ι} {b : Booking}
    (hb : b ∈ (gs i).taken)
    (hheld : ∀ id, held redis' id = if id = b.id then none else held redis id)
    (hunits : ∀ item, units redis' item = units redis item +
      if b.item = item then (held redis b.id).getD 0 else 0)
    {g : Progress} (hg : g = { gs k with released := (gs k).released ++ [b.id] }) :
    StockInv level before unused redis' (Function.update gs k g) := by
  have ht : ∀ j, (Function.update gs k g j).taken = (gs j).taken :=
    update_proj Progress.taken (by rw [hg])
  have hc : ∀ j, (Function.update gs k g j).committed = (gs j).committed :=
    update_proj Progress.committed (by rw [hg])
  have hr : ∀ j, ∀ id ∈ (Function.update gs k g j).released, id ∈ (gs j).released ∨ id = b.id := by
    intro j id hid
    by_cases hj : j = k
    · subst hj
      rw [Function.update_self, hg] at hid
      simpa using hid
    · rw [Function.update_of_ne hj] at hid
      exact Or.inl hid
  refine
    { own := fun j => ht j ▸ h.own j
      apart := fun hb' hc' => h.apart (ht _ ▸ hb') (ht _ ▸ hc')
      used := fun hb' => h.used (ht _ ▸ hb')
      vacant := h.vacant
      qty := ?qty
      gone := ?gone
      others := ?others
      conserved := fun item => ?conserved }
  case qty =>
    intro j c q hcj hq
    rw [hheld] at hq
    split at hq
    · cases hq
    · exact h.qty (ht j ▸ hcj) hq
  case gone =>
    intro j c hcj hgone
    rw [ht] at hcj
    rw [hheld]
    split
    · rfl
    · rename_i hne
      refine h.gone hcj ?_
      rw [hc] at hgone
      rcases hgone with hgone | hgone
      · exact Or.inl ((hr j _ hgone).resolve_right hne)
      · exact Or.inr hgone
  case others =>
    intro id hother
    have hne : b.id ≠ id := hother i b (by rw [ht]; exact hb)
    rw [hheld, if_neg hne.symm]
    exact h.others fun j c hcj => hother j c (by rw [ht]; exact hcj)
  case conserved =>
    have hsum := sum_change (fun j => (gs j).tied redis item)
      (fun j => (Function.update gs k g j).tied redis' item) i fun j hj =>
        tied_congr (ht j) (hc j) fun c hcj => by
          rw [hheld, if_neg fun heq => hj (h.apart hcj hb heq)]
    have hi : (Function.update gs k g i).tied redis' item = (gs i).tied redis item +
        (b.tied redis' (gs i).committed item - b.tied redis (gs i).committed item) := by
      rw [Progress.tied, ht, hc]
      exact sum_map_change (h.own i) hb fun c _ hne => by simp only [Booking.tied, hheld, if_neg hne]
    have hlevel := h.conserved item
    rw [hsum, hi, hunits, Booking.tied, Booking.tied, hheld, if_pos rfl]
    cases hh : held redis b.id with
    | none =>
      simp only [Option.isSome_none, Option.getD_none, ite_self]
      omega
    | some q =>
      -- a live booking is not committed
      have hnc : b.id ∉ (gs i).committed := by
        intro hmem
        rw [h.gone hb (Or.inr hmem)] at hh
        cases hh
      obtain rfl := h.qty hb hh
      simp only [hnc, Option.isSome_some, Option.isSome_none, Option.getD_some, or_false,
        Bool.false_eq_true, and_false, and_true, if_false]
      omega

/-- A live booking of execution `i` is committed by it. -/
theorem commit (h : StockInv level before unused redis gs) {i : ι} {b : Booking}
    (hb : b ∈ (gs i).taken) (hlive : (held redis b.id).isSome)
    (hheld : ∀ id, held redis' id = if id = b.id then none else held redis id)
    (hunits : ∀ item, units redis' item = units redis item)
    {g : Progress} (hg : g = { gs i with committed := (gs i).committed ++ [b.id] }) :
    StockInv level before unused redis' (Function.update gs i g) := by
  have ht : ∀ j, (Function.update gs i g j).taken = (gs j).taken :=
    update_proj Progress.taken (by rw [hg])
  have hr : ∀ j, (Function.update gs i g j).released = (gs j).released :=
    update_proj Progress.released (by rw [hg])
  have hc : ∀ j, ∀ id ∈ (Function.update gs i g j).committed, id ∈ (gs j).committed ∨ id = b.id := by
    intro j id hid
    by_cases hj : j = i
    · subst hj
      rw [Function.update_self, hg] at hid
      simpa using hid
    · rw [Function.update_of_ne hj] at hid
      exact Or.inl hid
  refine
    { own := fun j => ht j ▸ h.own j
      apart := fun hb' hc' => h.apart (ht _ ▸ hb') (ht _ ▸ hc')
      used := fun hb' => h.used (ht _ ▸ hb')
      vacant := h.vacant
      qty := ?qty
      gone := ?gone
      others := ?others
      conserved := fun item => ?conserved }
  case qty =>
    intro j c q hcj hq
    rw [hheld] at hq
    split at hq
    · cases hq
    · exact h.qty (ht j ▸ hcj) hq
  case gone =>
    intro j c hcj hgone
    rw [ht] at hcj
    rw [hheld]
    split
    · rfl
    · rename_i hne
      refine h.gone hcj ?_
      rw [hr] at hgone
      rcases hgone with hgone | hgone
      · exact Or.inl hgone
      · exact Or.inr ((hc j _ hgone).resolve_right hne)
  case others =>
    intro id hother
    have hne : b.id ≠ id := hother i b (by rw [ht]; exact hb)
    rw [hheld, if_neg hne.symm]
    exact h.others fun j c hcj => hother j c (by rw [ht]; exact hcj)
  case conserved =>
    -- what was on hold is consumed, so every execution's share stays
    rw [hunits, ← h.conserved item]
    congr 1
    refine Finset.sum_congr rfl fun j _ => ?_
    by_cases hj : j = i
    · subst hj
      rw [Function.update_self, Progress.tied, Progress.tied, hg]
      refine congrArg List.sum (List.map_congr_left fun c _ => ?_)
      by_cases hcb : c.id = b.id
      · simp [Booking.tied, hheld, hcb, hlive]
      · simp [Booking.tied, hheld, hcb]
    · rw [Function.update_of_ne hj]
      exact tied_congr rfl rfl fun c hcj => by
        rw [hheld, if_neg fun heq => hj (h.apart hcj hb heq)]

end StockInv

end SupplyChain
