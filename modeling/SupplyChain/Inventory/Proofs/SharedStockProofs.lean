import Mathlib.Algebra.Order.BigOperators.Group.Finset
import Mathlib.Data.Fintype.BigOperators
import SupplyChain.Inventory.Proofs.InMemoryRedisProofs
import SupplyChain.Inventory.Proofs.ScriptLedgerProofs
import SupplyChain.Inventory.Proofs.RedisServerProofs
import SupplyChain.Inventory.SharedStock

/-!
# Proofs: services that share stock never sell more than there is

The order of the calls is a run of the ledger, in which what was accepted and not released, together with what
is left, is never more than what was put in stock. What the services have been told is a part of that.
-/

namespace SupplyChain

open InventoryService Collections Trace
open RawRespClient (settlements)

/-! ## Along a run of the ledger -/

section Ledger

variable {tr : Trace} {r : Redis} {item : String}

/-- The quantity of an item that was accepted and not released. -/
def keptQty (tr : Trace) (item : String) : Int := total tr item fun g => g.id ∉ released tr

theorem keptQty_quiet {e : Event} (he : e.Quiet) : keptQty (e :: tr) item = keptQty tr item := by
  have hg : grants (e :: tr) = grants tr := by
    rw [grants, he.grant]
    rfl
  have hr : released (e :: tr) = released tr := by
    rw [released_cons, he.released]
    rfl
  exact total_congr hg fun g _ => by rw [hr]

theorem keptQty_release (h : LedgerInv tr r) {g : Grant} (hmem : g ∈ grants tr) (ho : Open tr g)
    {e : Event} (hgrant : ∀ now, e.grant now = none) (hreleased : e.released = some g.id) :
    keptQty tr item = keptQty (e :: tr) item + if g.item = item then g.qty else 0 := by
  have hg : grants (e :: tr) = grants tr := by
    rw [grants, hgrant]
    rfl
  have hr : released (e :: tr) = g.id :: released tr := by
    rw [released_cons, hreleased]
    rfl
  have hmove := @total_move (e :: tr) tr item (fun g => g.id ∉ released (e :: tr))
    (fun g => g.id ∉ released tr) _ _ g True _ (hg ▸ h.ids) (hg ▸ hmem) hg.symm
    (fun g' _ hne => by rw [hr, List.mem_cons, not_or, and_iff_right hne])
    (by rw [hr]; exact fun hnot => hnot List.mem_cons_self) (iff_true_intro ho.1)
  simp only [and_true] at hmove
  exact hmove

/-- What was accepted and not released and what is left is never more than all that was put in stock. -/
theorem Run.kept_le (h : Run tr r) (item : String) : keptQty tr item + units r item ≤ (sets tr item).sum := by
  induction h with
  | start => exact le_refl 0
  | @step tr r hrun op ha ih =>
    have hinv := hrun.inv
    cases op with
    | setStock w s qty =>
      have hkept : keptQty (⟨.setStock w s qty, .done⟩ :: tr) item = keptQty tr item := rfl
      have hsets : sets (⟨.setStock w s qty, .done⟩ :: tr) item =
          (if itemName w s = item then some qty else none).toList ++ sets tr item := sets_cons
      have hnonneg := hinv.nonneg item
      show keptQty (⟨.setStock w s qty, .done⟩ :: tr) item + units (r.set (stockKey w s) qty) item ≤ _
      rw [hkept, units_set]
      show _ ≤ (sets (⟨.setStock w s qty, .done⟩ :: tr) item).sum
      rw [hsets]
      by_cases hitem : itemName w s = item
      · rw [if_pos hitem.symm, if_pos hitem, Option.toList_some, List.singleton_append, List.sum_cons]
        omega
      · rw [if_neg (Ne.symm hitem), if_neg hitem]
        exact ih
    | reserve w s qty ttl id =>
      obtain ⟨ht, hfresh⟩ := ha
      rcases reserve_cases r w s qty ht id with ⟨reason, remaining, hrej, -⟩ | ⟨hq, hle, hok⟩
      · simp only [Op.run, hrej]
        rw [keptQty_quiet ⟨fun _ => rfl, fun _ => rfl, rfl, rfl⟩]
        exact ih
      · simp only [Op.run, hok]
        have hkept := @total_accept tr
          (⟨.reserve w s qty ttl id, .reserved (.ok (.accepted id (units r (itemName w s) - qty)))⟩ :: tr) item
          (fun g => g.id ∉ released tr) (fun g => g.id ∉ released tr) _ _
          ⟨⟨w, s, id⟩, qty, clock tr + 1000 * ttl.toNat⟩ rfl fun _ _ => Iff.rfl
        have hnew : id ∉ released tr := by
          intro hmem
          obtain ⟨g, hg, hid⟩ := hinv.granted id (List.mem_append_left _ hmem)
          exact hfresh g hg hid
        have hcond : ((⟨⟨w, s, id⟩, qty, clock tr + 1000 * ttl.toNat⟩ : Grant).item = item ∧
            (⟨⟨w, s, id⟩, qty, clock tr + 1000 * ttl.toNat⟩ : Grant).id ∉ released tr) ↔
            item = itemName w s := ⟨fun h => h.1.symm, fun h => ⟨h.symm, hnew⟩⟩
        rw [units_setEx, units_incrBy]
        show total _ item (fun g => g.id ∉ released tr) + _ ≤ (sets tr item).sum
        rw [hkept]
        simp only [hcond]
        have hsame : total tr item (fun g => g.id ∉ released tr) = keptQty tr item := rfl
        rw [hsame]
        by_cases hitem : item = itemName w s
        · rw [if_pos hitem, if_pos hitem]
          omega
        · rw [if_neg hitem, if_neg hitem]
          omega
    | release w s id =>
      rcases hinv.resolves ha.2 with hnone | ⟨g, hmem, hg, ho, hheld⟩
      · simp only [Op.run, release_of_none hnone]
        rw [keptQty_quiet ⟨fun _ => rfl, fun _ => rfl, rfl, rfl⟩]
        exact ih
      · simp only [Op.run, release_of_some hheld]
        have hid : g.id = id := by rw [Grant.id, hg]
        have hitem : g.item = itemName w s := by rw [Grant.item, hg]
        have hkept : keptQty tr item = keptQty (⟨.release w s id, .resolved (.ok .RELEASED)⟩ :: tr) item +
            if g.item = item then g.qty else 0 :=
          keptQty_release hinv hmem ho (fun _ => rfl) (by rw [hid]; rfl)
        rw [units_incrBy, units_del]
        show _ ≤ (sets tr item).sum
        rw [hitem] at hkept
        by_cases heq : item = itemName w s
        · rw [if_pos heq.symm] at hkept
          rw [if_pos heq]
          omega
        · rw [if_neg (Ne.symm heq)] at hkept
          rw [if_neg heq]
          omega
    | commit w s id =>
      rcases hinv.resolves ha.2 with hnone | ⟨g, -, -, -, hheld⟩
      · simp only [Op.run, commit_of_none hnone]
        rw [keptQty_quiet ⟨fun _ => rfl, fun _ => rfl, rfl, rfl⟩]
        exact ih
      · simp only [Op.run, commit_of_some hheld]
        rw [units_del]
        exact ih
    | elapse ms =>
      show keptQty _ item + units (r.elapse ms) item ≤ _
      rw [hinv.units_of_entries (show (r.elapse ms).entries = r.entries from rfl),
        keptQty_quiet ⟨fun _ => rfl, fun _ => rfl, rfl, rfl⟩]
      exact ih

/-- No number is larger than what was put in stock. -/
theorem Run.ranged (h : Run tr r) (hstock : ∀ item, (sets tr item).sum < 2 ^ 53) : r.Ranged := by
  refine h.ranged_of_units fun item => ?_
  have hopen : openQty tr item ≤ keptQty tr item := total_mono h.inv.pos fun g _ ho => ho.1
  have hkept := h.kept_le item
  have hsum := hstock item
  omega

end Ledger

/-! ## An order of calls as a run of the ledger -/

section Order

variable {ι : Type} {order : List (InventoryEvent ι)} {event : InventoryEvent ι} {r : Redis} {tr : Trace}

namespace InventoryEvent

/-- The answer to a call. -/
def answer (r : Redis) : InventoryEvent ι → List (InventoryCall × InventoryReply)
  | .call _ c => [(c, (Deployment.server.call r c).2)]
  | .elapse _ => []

/-- All answers. -/
def answered : Redis → List (InventoryEvent ι) → List (InventoryCall × InventoryReply)
  | _, [] => []
  | r, event :: order => event.answer r ++ answered (event.apply r) order

/-- The calls of an order. -/
def calls (order : List (InventoryEvent ι)) : List InventoryCall :=
  order.filterMap fun
    | .call _ c => some c
    | .elapse _ => none

/-- The time that passes. -/
def ms : InventoryEvent ι → Nat
  | .call _ (.elapse ms) => ms
  | .call _ _ => 0
  | .elapse ms => ms

/-- The time that passes in all, in milliseconds. -/
def elapsed (order : List (InventoryEvent ι)) : Nat := (order.map ms).sum

theorem answered_concat : answered r (order ++ [event]) = answered r order ++ event.answer (after r order) := by
  induction order generalizing r with
  | nil => exact List.append_nil _
  | cons e order ih =>
    rw [List.cons_append, answered, ih, answered, List.append_assoc]
    rfl

theorem after_concat : after r (order ++ [event]) = event.apply (after r order) := by
  rw [after, List.foldl_append]
  rfl

theorem calls_concat : calls (order ++ [event]) = calls order ++ calls [event] := List.filterMap_append ..

theorem elapsed_concat : elapsed (order ++ [event]) = elapsed order + event.ms := by
  rw [elapsed, List.map_append, List.sum_append]
  rfl

theorem ranged_concat : Ranged r (order ++ [event]) ↔
    Ranged r order ∧ event.RangedAt (after r order).now ∧ (event.apply (after r order)).Ranged := by
  induction order generalizing r with
  | nil => exact Iff.rfl
  | cons e order ih =>
    rw [List.cons_append, Ranged, ih, Ranged, and_assoc, and_assoc]
    rfl

end InventoryEvent

/-- The ledger has what the calls of an order put in stock and what they were answered. -/
structure Recorded (order : List (InventoryEvent ι)) (tr : Trace) : Prop where
  run : Run tr (InventoryEvent.after Redis.empty order)
  grants : ∀ g ∈ grants tr, ∃ ttl,
    .reserve g.reservation.warehouseId g.reservation.sku g.qty ttl g.id ∈ InventoryEvent.calls order
  released : ∀ id ∈ released tr, ∃ w s, .release w s id ∈ InventoryEvent.calls order
  stocked : ∀ item, (sets tr item).sum = ((InventoryEvent.calls order).map (InventoryCall.stocked item)).sum
  promised : ∀ item (ids : List ReservationId), total tr item (fun g => g.id ∈ ids) =
    ((InventoryEvent.answered Redis.empty order).map fun a => a.1.promised item ids a.2).sum
  clock : clock tr = InventoryEvent.elapsed order

theorem Recorded.extend (h : Recorded order tr) {tr' : Trace}
    (hrun : Run tr' (event.apply (InventoryEvent.after Redis.empty order)))
    (hgrants : ∀ g ∈ Trace.grants tr', g ∈ Trace.grants tr ∨ ∃ ttl,
      .reserve g.reservation.warehouseId g.reservation.sku g.qty ttl g.id ∈ InventoryEvent.calls [event])
    (hreleased : ∀ id ∈ Trace.released tr', id ∈ Trace.released tr ∨
      ∃ w s, .release w s id ∈ InventoryEvent.calls [event])
    (hstocked : ∀ item, (sets tr' item).sum =
      (sets tr item).sum + ((InventoryEvent.calls [event]).map (InventoryCall.stocked item)).sum)
    (hpromised : ∀ item (ids : List ReservationId), total tr' item (fun g => g.id ∈ ids) =
      total tr item (fun g => g.id ∈ ids) + ((event.answer (InventoryEvent.after Redis.empty order)).map fun a =>
        a.1.promised item ids a.2).sum)
    (hclock : Trace.clock tr' = Trace.clock tr + event.ms) : Recorded (order ++ [event]) tr' := by
  refine ⟨?_, ?_, ?_, fun item => ?_, fun item ids => ?_, ?_⟩
  · rw [InventoryEvent.after_concat]
    exact hrun
  · intro g hmem
    rw [InventoryEvent.calls_concat]
    rcases hgrants g hmem with hold | ⟨ttl, hnew⟩
    · obtain ⟨ttl, hcall⟩ := h.grants g hold
      exact ⟨ttl, List.mem_append_left _ hcall⟩
    · exact ⟨ttl, List.mem_append_right _ hnew⟩
  · intro id hmem
    rw [InventoryEvent.calls_concat]
    rcases hreleased id hmem with hold | ⟨w, s, hnew⟩
    · obtain ⟨w, s, hcall⟩ := h.released id hold
      exact ⟨w, s, List.mem_append_left _ hcall⟩
    · exact ⟨w, s, List.mem_append_right _ hnew⟩
  · rw [InventoryEvent.calls_concat, List.map_append, List.sum_append, ← h.stocked]
    exact hstocked item
  · rw [InventoryEvent.answered_concat, List.map_append, List.sum_append, ← h.promised]
    exact hpromised item ids
  · rw [hclock, h.clock, InventoryEvent.elapsed_concat]

/-- An event about which the ledger says nothing, of a call that puts nothing in stock and is promised
nothing. -/
theorem Recorded.quiet (h : Recorded order tr) {e : Event} (he : e.Quiet) (hms : e.ms = event.ms)
    (hrun : Run (e :: tr) (event.apply (InventoryEvent.after Redis.empty order)))
    (hstocked : ∀ item, ((InventoryEvent.calls [event]).map (InventoryCall.stocked item)).sum = 0)
    (hpromised : ∀ item (ids : List ReservationId),
      ((event.answer (InventoryEvent.after Redis.empty order)).map fun a =>
        a.1.promised item ids a.2).sum = 0) : Recorded (order ++ [event]) (e :: tr) := by
  have hg : Trace.grants (e :: tr) = Trace.grants tr := by
    rw [Trace.grants, he.grant]
    rfl
  refine h.extend hrun (fun g hmem => Or.inl (hg ▸ hmem)) (fun id hmem => Or.inl ?_) (fun item => ?_)
    (fun item ids => ?_) ?_
  · rw [released_cons, he.released] at hmem
    exact hmem
  · rw [hstocked, sets_cons, he.sets, add_zero]
    rfl
  · rw [hpromised, add_zero]
    exact total_congr hg fun g _ => Iff.rfl
  · rw [Trace.clock, hms]

variable {i : ι} {w : WarehouseId} {s : Sku} {id : ReservationId}

theorem call_reserve (r : Redis) (w : WarehouseId) (s : Sku) (qty ttl : Int) (id : ReservationId) :
    Deployment.server.call r (.reserve w s qty ttl id) =
      ((reserve r w s qty ttl id).1, .reserved (reserve r w s qty ttl id).2) := by
  rw [← server_reserve]
  rfl

theorem call_release (r : Redis) (w : WarehouseId) (s : Sku) (id : ReservationId) :
    Deployment.server.call r (.release w s id) = ((release r w s id).1, .resolved (release r w s id).2) := by
  rw [release, ← server_resolve]
  rfl

theorem call_commit (r : Redis) (w : WarehouseId) (s : Sku) (id : ReservationId) :
    Deployment.server.call r (.commit w s id) = ((commit r w s id).1, .resolved (commit r w s id).2) := by
  rw [commit, ← server_resolve]
  rfl

theorem calls_call (c : InventoryCall) : InventoryEvent.calls [(.call i c : InventoryEvent ι)] = [c] := rfl

theorem mem_calls_concat {c c' : InventoryCall} (hmem : c ∈ InventoryEvent.calls order) :
    c ∈ InventoryEvent.calls (order ++ [.call i c']) := by
  rw [InventoryEvent.calls_concat]
  exact List.mem_append_left _ hmem

theorem last_mem_calls (c : InventoryCall) : c ∈ InventoryEvent.calls (order ++ [.call i c]) := by
  rw [InventoryEvent.calls_concat, calls_call]
  exact List.mem_append_right _ List.mem_cons_self

theorem Recorded.fresh (h : Recorded order tr) {qty ttl : Int}
    (horderly : Orderly fun _ : Unit => InventoryEvent.calls (order ++ [.call i (.reserve w s qty ttl id)]))
    {g : Grant} (hg : g ∈ Trace.grants tr) : g.id ≠ id := by
  obtain ⟨ttl', hcall⟩ := h.grants g hg
  have hnodup := horderly.once ()
  rw [InventoryEvent.calls_concat, calls_call, List.filterMap_append, List.nodup_append] at hnodup
  refine hnodup.2.2 g.id (List.mem_filterMap.mpr ⟨_, hcall, rfl⟩) id ?_
  exact List.mem_filterMap.mpr ⟨_, List.mem_cons_self, rfl⟩

theorem Recorded.reservation (h : Recorded order tr) {c : InventoryCall}
    (horderly : Orderly fun _ : Unit => InventoryEvent.calls (order ++ [.call i c]))
    (hc : c.resolves = some ⟨w, s, id⟩) {g : Grant} (hg : g ∈ Trace.grants tr) (hid : g.id = id) :
    g.reservation = ⟨w, s, id⟩ := by
  obtain ⟨ttl, hcall⟩ := h.grants g hg
  have hnamed := horderly.named () () _ _ _ ⟨w, s, id⟩ _ _ (mem_calls_concat hcall)
    (List.mem_filterMap.mpr ⟨c, last_mem_calls c, hc⟩) hid.symm
  rw [hnamed]

theorem Recorded.setStock (h : Recorded order tr) {qty : Int} (hqty : 0 ≤ qty) :
    Recorded (order ++ [.call i (.setStock w s qty)]) (⟨.setStock w s qty, .done⟩ :: tr) := by
  have hstate : InventoryEvent.apply (InventoryEvent.after Redis.empty order)
      (.call i (.setStock w s qty) : InventoryEvent ι) =
        InventoryService.setStock (InventoryEvent.after Redis.empty order) w s qty :=
    server_setStock _ w s qty
  refine h.extend ?_ (fun g hmem => Or.inl hmem) (fun id hmem => Or.inl hmem) (fun item => ?_)
    (fun item ids => ?_) rfl
  · rw [hstate]
    exact .step h.run (.setStock w s qty) ⟨trivial, hqty⟩
  · rw [sets_cons, calls_call, List.map_singleton, List.sum_singleton, InventoryCall.stocked]
    show ((if itemName w s = item then some qty else none).toList ++ sets tr item).sum = _
    split
    · rw [Option.toList_some, List.singleton_append, List.sum_cons, add_comm]
    · rw [add_zero]
      rfl
  · show _ = _ + (0 + 0)
    rw [add_zero, add_zero]
    rfl

theorem Recorded.getAvailable (h : Recorded order tr) :
    Recorded (order ++ [.call i (.getAvailable w s)]) tr := by
  have hstate : InventoryEvent.apply (InventoryEvent.after Redis.empty order)
      (.call i (.getAvailable w s) : InventoryEvent ι) = InventoryEvent.after Redis.empty order :=
    congrArg Prod.fst (server_getAvailable _ w s)
  refine h.extend ?_ (fun g hmem => Or.inl hmem) (fun id hmem => Or.inl hmem) (fun item => ?_)
    (fun item ids => ?_) rfl
  · rw [hstate]
    exact h.run
  · exact (add_zero _).symm
  · exact (add_zero _).symm

/-- A run that goes on as a call does. -/
theorem run_call {c : InventoryCall} {r r' : Redis} {reply : InventoryReply} (hrun : Run tr r')
    (hcall : Deployment.server.call r c = (r', reply)) : Run tr (InventoryEvent.apply r (.call i c)) := by
  show Run tr (Deployment.server.call r c).1
  rw [hcall]
  exact hrun

/-- A call that is refused. -/
theorem Recorded.refused (h : Recorded order tr) {c : InventoryCall} {e : Event} {reply : InventoryReply}
    (hrun : Run (e :: tr) (InventoryEvent.after Redis.empty order))
    (hcall : Deployment.server.call (InventoryEvent.after Redis.empty order) c =
      (InventoryEvent.after Redis.empty order, reply))
    (he : e.Quiet) (hms : e.ms = (InventoryEvent.call i c).ms)
    (hstocked : ∀ item, c.stocked item = 0) (hpromised : ∀ item ids, c.promised item ids reply = 0) :
    Recorded (order ++ [.call i c]) (e :: tr) := by
  refine h.quiet he hms (run_call hrun hcall) (fun item => ?_) fun item ids => ?_
  · rw [calls_call, List.map_singleton, List.sum_singleton]
    exact hstocked item
  · rw [InventoryEvent.answer, hcall, List.map_singleton, List.sum_singleton]
    exact hpromised item ids

theorem Recorded.reserve (h : Recorded order tr) {qty ttl : Int} (httl : 0 < ttl)
    (hfresh : ∀ g ∈ Trace.grants tr, g.id ≠ id) :
    ∃ tr', Recorded (order ++ [.call i (.reserve w s qty ttl id)]) tr' := by
  have hcall := call_reserve (InventoryEvent.after Redis.empty order) w s qty ttl id
  have hrun := Run.step h.run (.reserve w s qty ttl id) ⟨httl, hfresh⟩
  rcases reserve_cases (InventoryEvent.after Redis.empty order) w s qty httl id with
    ⟨reason, remaining, hrej, -⟩ | ⟨hq, hle, hok⟩
  · rw [hrej] at hcall
    simp only [Op.run, hrej] at hrun
    exact ⟨_, h.refused hrun hcall ⟨fun _ => rfl, fun _ => rfl, rfl, rfl⟩ rfl (fun _ => rfl) fun _ _ => rfl⟩
  · rw [hok] at hcall
    simp only [Op.run, hok] at hrun
    refine ⟨_, h.extend (run_call hrun hcall) (fun g hmem => ?_) (fun x hmem => Or.inl hmem) (fun item => ?_)
      (fun item ids => ?_) rfl⟩
    · rcases List.mem_cons.mp hmem with rfl | hold
      · exact Or.inr ⟨ttl, List.mem_cons_self⟩
      · exact Or.inl hold
    · exact (add_zero _).symm
    · rw [InventoryEvent.answer, hcall, List.map_singleton, List.sum_singleton]
      exact total_accept (g := ⟨⟨w, s, id⟩, qty, Trace.clock tr + 1000 * ttl.toNat⟩) rfl fun _ _ => Iff.rfl

theorem Recorded.release (h : Recorded order tr)
    (ha : ∀ g ∈ Trace.grants tr, g.id = id → g.reservation = ⟨w, s, id⟩) :
    ∃ tr', Recorded (order ++ [.call i (.release w s id)]) tr' := by
  have hcall := call_release (InventoryEvent.after Redis.empty order) w s id
  have hrun := Run.step h.run (.release w s id) ⟨trivial, ha⟩
  rcases h.run.inv.resolves ha with hnone | ⟨g, -, -, -, hheld⟩
  · rw [release_of_none hnone] at hcall
    simp only [Op.run, release_of_none hnone] at hrun
    exact ⟨_, h.refused hrun hcall ⟨fun _ => rfl, fun _ => rfl, rfl, rfl⟩ rfl (fun _ => rfl) fun _ _ => rfl⟩
  · rw [release_of_some hheld] at hcall
    simp only [Op.run, release_of_some hheld] at hrun
    refine ⟨_, h.extend (run_call hrun hcall) (fun g hmem => Or.inl hmem) (fun x hmem => ?_) (fun item => ?_)
      (fun item ids => ?_) rfl⟩
    · rcases List.mem_cons.mp hmem with rfl | hold
      · exact Or.inr ⟨w, s, List.mem_cons_self⟩
      · exact Or.inl hold
    · exact (add_zero _).symm
    · exact (add_zero _).symm

theorem Recorded.commit (h : Recorded order tr)
    (ha : ∀ g ∈ Trace.grants tr, g.id = id → g.reservation = ⟨w, s, id⟩) :
    ∃ tr', Recorded (order ++ [.call i (.commit w s id)]) tr' := by
  have hcall := call_commit (InventoryEvent.after Redis.empty order) w s id
  have hrun := Run.step h.run (.commit w s id) ⟨trivial, ha⟩
  rcases h.run.inv.resolves ha with hnone | ⟨g, -, -, -, hheld⟩
  · rw [commit_of_none hnone] at hcall
    simp only [Op.run, commit_of_none hnone] at hrun
    exact ⟨_, h.refused hrun hcall ⟨fun _ => rfl, fun _ => rfl, rfl, rfl⟩ rfl (fun _ => rfl) fun _ _ => rfl⟩
  · rw [commit_of_some hheld] at hcall
    simp only [Op.run, commit_of_some hheld] at hrun
    refine ⟨_, h.extend (run_call hrun hcall) (fun g hmem => Or.inl hmem) (fun x hmem => Or.inl hmem)
      (fun item => ?_) (fun item ids => ?_) rfl⟩
    · exact (add_zero _).symm
    · exact (add_zero _).symm

theorem Recorded.step (h : Recorded order tr)
    (horderly : Orderly fun _ : Unit => InventoryEvent.calls (order ++ [event])) :
    ∃ tr', Recorded (order ++ [event]) tr' := by
  cases event with
  | call i c =>
    cases c with
    | setStock w s qty => exact ⟨_, h.setStock (horderly.stock () w s qty (last_mem_calls _))⟩
    | getAvailable w s => exact ⟨_, h.getAvailable⟩
    | reserve w s qty ttl id =>
      exact h.reserve (horderly.ttl () w s id qty ttl (last_mem_calls _)) fun g hg => h.fresh horderly hg
    | release w s id => exact h.release fun g hg hid => h.reservation horderly rfl hg hid
    | commit w s id => exact h.commit fun g hg hid => h.reservation horderly rfl hg hid
    | elapse ms =>
      exact ⟨_, h.quiet (e := ⟨.elapse ms, .done⟩) ⟨fun _ => rfl, fun _ => rfl, rfl, rfl⟩ rfl
        (.step h.run (.elapse ms) ⟨trivial, trivial⟩) (fun _ => rfl) fun _ _ => rfl⟩
  | elapse ms =>
    exact ⟨_, h.quiet (e := ⟨.elapse ms, .done⟩) ⟨fun _ => rfl, fun _ => rfl, rfl, rfl⟩ rfl
      (.step h.run (.elapse ms) ⟨trivial, trivial⟩) (fun _ => rfl) fun _ _ => rfl⟩

theorem recorded_start : Recorded ([] : List (InventoryEvent ι)) [] where
  run := .start
  grants g hg := by cases hg
  released id hid := by cases hid
  stocked _ := rfl
  promised _ _ := rfl
  clock := rfl

/-- Fewer calls are as orderly. -/
theorem Orderly.of_sublist {κ : Type} {calls calls' : κ → List InventoryCall} (h : Orderly calls)
    (hsub : ∀ i, (calls' i).Sublist (calls i)) : Orderly calls' where
  stock i w s qty hmem := h.stock i w s qty ((hsub i).subset hmem)
  ttl i w s id qty ttl hmem := h.ttl i w s id qty ttl ((hsub i).subset hmem)
  once i := (h.once i).sublist ((hsub i).filterMap _)
  apart i j hij _ hi hj := h.apart i j hij (((hsub i).filterMap _).subset hi) (((hsub j).filterMap _).subset hj)
  named i j w s id r qty ttl hreserve hresolve :=
    h.named i j w s id r qty ttl ((hsub i).subset hreserve) (((hsub j).filterMap _).subset hresolve)

theorem Orderly.init (h : Orderly fun _ : Unit => InventoryEvent.calls (order ++ [event])) :
    Orderly fun _ : Unit => InventoryEvent.calls order := by
  refine h.of_sublist fun _ => ?_
  rw [InventoryEvent.calls_concat]
  exact List.sublist_append_left _ _

theorem exists_recorded (order : List (InventoryEvent ι))
    (horderly : Orderly fun _ : Unit => InventoryEvent.calls order) : ∃ tr, Recorded order tr := by
  induction order using List.reverseRecOn with
  | nil => exact ⟨[], recorded_start⟩
  | append_singleton order event ih =>
    obtain ⟨tr, htr⟩ := ih horderly.init
    exact htr.step horderly

theorem Orderly.stocked_nonneg {κ : Type} {calls : κ → List InventoryCall} (h : Orderly calls) {i : κ}
    (item : String) : ∀ n ∈ (calls i).map (InventoryCall.stocked item), 0 ≤ n := by
  intro n hn
  obtain ⟨c, hc, rfl⟩ := List.mem_map.mp hn
  cases c with
  | setStock w s qty =>
    have hqty := h.stock i w s qty hc
    rw [InventoryCall.stocked]
    split
    · exact hqty
    · exact le_refl 0
  | _ => exact le_refl 0

/-- Not too much is put in stock, and nothing is reserved for too long. -/
structure Modest (order : List (InventoryEvent ι)) : Prop where
  orderly : Orderly fun _ : Unit => InventoryEvent.calls order
  stock : ∀ item, ((InventoryEvent.calls order).map (InventoryCall.stocked item)).sum < 2 ^ 53
  reserve : ∀ w s id (qty ttl : Int), .reserve w s qty ttl id ∈ InventoryEvent.calls order →
    Decimal.IsDouble ttl ∧ InventoryEvent.elapsed order + 1000 * ttl < 2 ^ 63

theorem Modest.init (h : Modest (order ++ [event])) : Modest order := by
  refine ⟨h.orderly.init, fun item => ?_, fun w s id qty ttl hmem => ?_⟩
  · have hsum := h.stock item
    rw [InventoryEvent.calls_concat, List.map_append, List.sum_append] at hsum
    have hlast : 0 ≤ ((InventoryEvent.calls [event]).map (InventoryCall.stocked item)).sum := by
      refine List.sum_nonneg fun n hn => h.orderly.stocked_nonneg (i := ()) item n ?_
      rw [InventoryEvent.calls_concat, List.map_append]
      exact List.mem_append_right _ hn
    omega
  · obtain ⟨hdouble, htime⟩ := h.reserve w s id qty ttl (by
      rw [InventoryEvent.calls_concat]
      exact List.mem_append_left _ hmem)
    rw [InventoryEvent.elapsed_concat] at htime
    exact ⟨hdouble, by omega⟩

theorem Modest.after (h : Modest order) : (InventoryEvent.after Redis.empty order).Ranged := by
  obtain ⟨tr, htr⟩ := exists_recorded order h.orderly
  refine htr.run.ranged fun item => ?_
  rw [htr.stocked]
  exact h.stock item

theorem Modest.last (h : Modest (order ++ [event])) :
    event.RangedAt (InventoryEvent.after Redis.empty order).now := by
  obtain ⟨tr, htr⟩ := exists_recorded order h.orderly.init
  have hnow : (InventoryEvent.after Redis.empty order).now = InventoryEvent.elapsed order :=
    htr.run.inv.now.trans htr.clock
  rw [hnow]
  cases event with
  | elapse ms => trivial
  | call i c =>
    cases c with
    | setStock w s qty =>
      have hqty := h.orderly.stock () w s qty (last_mem_calls _)
      have hsum := h.stock (itemName w s)
      have hle : qty ≤ ((InventoryEvent.calls (order ++ [.call i (.setStock w s qty)])).map
          (InventoryCall.stocked (itemName w s))).sum := by
        refine List.single_le_sum (h.orderly.stocked_nonneg (i := ()) _) _ ?_
        exact List.mem_map.mpr ⟨_, last_mem_calls _, if_pos rfl⟩
      show qty.natAbs < 2 ^ 53
      omega
    | reserve w s qty ttl id =>
      obtain ⟨hdouble, htime⟩ := h.reserve w s id qty ttl (last_mem_calls _)
      have hlive := h.orderly.ttl () w s id qty ttl (last_mem_calls _)
      rw [InventoryEvent.elapsed_concat] at htime
      exact ⟨hdouble, hlive, by omega⟩
    | _ => trivial

/-- All numbers are exact that come up. -/
theorem Modest.ranged (h : Modest order) : InventoryEvent.Ranged Redis.empty order := by
  induction order using List.reverseRecOn with
  | nil => exact h.after
  | append_singleton order event ih =>
    refine InventoryEvent.ranged_concat.mpr ⟨ih h.init, h.last, ?_⟩
    rw [← InventoryEvent.after_concat]
    exact h.after

/-! ## From the services to the order -/

variable [DecidableEq ι]

theorem mem_calls {c : InventoryCall} : c ∈ InventoryEvent.calls order ↔
    ∃ i, c ∈ InventoryEvent.callsOf i order := by
  constructor
  · intro hmem
    obtain ⟨event, hevent, hc⟩ := List.mem_filterMap.mp hmem
    cases event with
    | call i c' =>
      obtain rfl := Option.some.inj hc
      exact ⟨i, List.mem_filterMap.mpr ⟨_, hevent, if_pos rfl⟩⟩
    | elapse ms => cases hc
  · rintro ⟨i, hmem⟩
    obtain ⟨event, hevent, hc⟩ := List.mem_filterMap.mp hmem
    cases event with
    | call j c' =>
      dsimp only at hc
      split at hc
      · obtain rfl := Option.some.inj hc
        exact List.mem_filterMap.mpr ⟨_, hevent, rfl⟩
      · cases hc
    | elapse ms => cases hc

theorem mem_filterMap_calls {β : Type} {f : InventoryCall → Option β} {x : β} :
    x ∈ (InventoryEvent.calls order).filterMap f ↔ ∃ i, x ∈ (InventoryEvent.callsOf i order).filterMap f := by
  constructor
  · intro hmem
    obtain ⟨c, hc, hx⟩ := List.mem_filterMap.mp hmem
    obtain ⟨i, hi⟩ := mem_calls.mp hc
    exact ⟨i, List.mem_filterMap.mpr ⟨c, hi, hx⟩⟩
  · rintro ⟨i, hmem⟩
    obtain ⟨c, hc, hx⟩ := List.mem_filterMap.mp hmem
    exact List.mem_filterMap.mpr ⟨c, mem_calls.mpr ⟨i, hc⟩, hx⟩

/-- No id is drawn twice in the order. -/
theorem Orderly.drawn_nodup (h : Orderly fun i => InventoryEvent.callsOf i order) :
    ((InventoryEvent.calls order).filterMap InventoryCall.drawn).Nodup := by
  induction order with
  | nil => exact List.nodup_nil
  | cons event order ih =>
    have hrest : Orderly fun i => InventoryEvent.callsOf i order :=
      h.of_sublist fun i => (List.sublist_cons_self event order).filterMap _
    cases event with
    | elapse ms => exact ih hrest
    | call j c =>
      have hcalls : InventoryEvent.calls (.call j c :: order) = c :: InventoryEvent.calls order := rfl
      rw [hcalls, List.filterMap_cons]
      cases hdrawn : c.drawn with
      | none => exact ih hrest
      | some id =>
        refine List.nodup_cons.mpr ⟨fun hmem => ?_, ih hrest⟩
        obtain ⟨k, hk⟩ := mem_filterMap_calls.mp hmem
        have honce := h.once j
        rw [callsOf_cons, if_pos rfl, List.filterMap_cons, hdrawn] at honce
        by_cases hjk : j = k
        · subst hjk
          exact (List.nodup_cons.mp honce).1 hk
        · refine h.apart j k hjk (a := id) ?_ ?_
          · rw [callsOf_cons, if_pos rfl, List.filterMap_cons, hdrawn]
            exact List.mem_cons_self
          · rw [callsOf_cons, if_neg hjk]
            exact hk

theorem Orderly.calls (h : Orderly fun i => InventoryEvent.callsOf i order) :
    Orderly fun _ : Unit => InventoryEvent.calls order where
  stock _ w s qty hmem := by
    obtain ⟨i, hi⟩ := mem_calls.mp hmem
    exact h.stock i w s qty hi
  ttl _ w s id qty ttl hmem := by
    obtain ⟨i, hi⟩ := mem_calls.mp hmem
    exact h.ttl i w s id qty ttl hi
  once _ := h.drawn_nodup
  apart _ _ hne := absurd rfl hne
  named _ _ w s id r qty ttl hreserve hresolve := by
    obtain ⟨i, hi⟩ := mem_calls.mp hreserve
    obtain ⟨j, hj⟩ := mem_filterMap_calls.mp hresolve
    exact h.named i j w s id r qty ttl hi hj

variable [Fintype ι]

/-- What the services put in stock is put in stock in the order. -/
theorem sum_callsOf (f : InventoryCall → Int) :
    ∑ i, ((InventoryEvent.callsOf i order).map f).sum = ((InventoryEvent.calls order).map f).sum := by
  induction order with
  | nil => exact Finset.sum_const_zero
  | cons event order ih =>
    cases event with
    | elapse ms => exact ih
    | call j c =>
      have hcons : ∀ i, ((InventoryEvent.callsOf i (.call j c :: order)).map f).sum =
          (if j = i then f c else 0) + ((InventoryEvent.callsOf i order).map f).sum := by
        intro i
        rw [callsOf_cons]
        by_cases hj : j = i
        · rw [if_pos hj, if_pos hj, List.map_cons, List.sum_cons]
        · rw [if_neg hj, if_neg hj, zero_add]
      have hcalls : InventoryEvent.calls (.call j c :: order) = c :: InventoryEvent.calls order := rfl
      rw [Finset.sum_congr rfl fun i _ => hcons i, Finset.sum_add_distrib, ih,
        Finset.sum_ite_eq Finset.univ j fun _ => f c, if_pos (Finset.mem_univ j), hcalls, List.map_cons,
        List.sum_cons]

/-- What the services are promised is promised in the order. -/
theorem sum_answers (f : InventoryCall × InventoryReply → Int) :
    ∑ i, ((InventoryEvent.answers i r order).map f).sum = ((InventoryEvent.answered r order).map f).sum := by
  induction order generalizing r with
  | nil => exact Finset.sum_const_zero
  | cons event order ih =>
    cases event with
    | elapse ms => exact ih
    | call j c =>
      have hcons : ∀ i, ((InventoryEvent.answers i r (.call j c :: order)).map f).sum =
          (if j = i then f (c, (Deployment.server.call r c).2) else 0) +
            ((InventoryEvent.answers i (InventoryEvent.apply r (.call j c)) order).map f).sum := by
        intro i
        rw [InventoryEvent.answers]
        by_cases hj : j = i
        · rw [if_pos hj, if_pos hj, List.map_cons, List.sum_cons]
        · rw [if_neg hj, if_neg hj, zero_add]
      rw [Finset.sum_congr rfl fun i _ => hcons i, Finset.sum_add_distrib, ih,
        Finset.sum_ite_eq Finset.univ j fun _ => f (c, (Deployment.server.call r c).2),
        if_pos (Finset.mem_univ j), InventoryEvent.answered, List.map_append, List.sum_append,
        InventoryEvent.answer, List.map_singleton, List.sum_singleton]

end Order

/-! ## What a service has been told -/

section Told

variable {item : String} {ids : List ReservationId} {calls : List InventoryCall}
  {answers : List (InventoryCall × InventoryReply)} {replies : List Resp.Reply}

/-- A service that has been told everything has been told what it is promised. -/
theorem told_settlements (hread : List.Forall₂ ReadAs answers replies) (hcalls : answers.map Prod.fst <+: calls) :
    InventoryCall.told item ids calls (settlements replies) =
      (answers.map fun a => a.1.promised item ids a.2).sum := by
  rw [InventoryCall.told]
  refine congrArg List.sum (List.ext_getElem ?_ fun n hn hn' => ?_)
  · rw [List.length_map, List.length_map, hread.length_eq]
    simp [settlements]
  · rw [List.length_map] at hn'
    have hreply : n < replies.length := hread.length_eq ▸ hn'
    have hpair := List.forall₂_iff_get.mp hread |>.2 n hn' hreply
    have hreading : answers[n].1.reading (RawRespClient.settlement replies[n].value) = some answers[n].2 := hpair
    have hcall : calls[n]? = some answers[n].1 := by
      obtain ⟨rest, rfl⟩ := hcalls
      rw [List.getElem?_append_left (by rwa [List.length_map]), List.getElem?_map,
        List.getElem?_eq_getElem hn']
      rfl
    rw [List.length_map] at hn
    have hsettled : (settlements replies)[n] =
        (n, RawRespClient.settlement replies[n].value) := by
      simp [settlements]
    rw [List.getElem_map, List.getElem_map, hsettled]
    dsimp only
    rw [hcall, Option.bind_some, hreading]
    rfl

/-- A service that has been told less has been told no more. -/
theorem told_le {settled settled' : List (Nat × Settlement)} (hpositive : ∀ c ∈ calls, ∀ reply,
    0 ≤ c.promised item ids reply) (hearlier : settled <+: settled') :
    InventoryCall.told item ids calls settled ≤ InventoryCall.told item ids calls settled' := by
  obtain ⟨later, rfl⟩ := hearlier
  rw [InventoryCall.told, InventoryCall.told, List.map_append, List.sum_append]
  have hlater : 0 ≤ (later.map fun s =>
      (calls[s.1]?.bind fun c => (c.reading s.2).map (c.promised item ids)).getD 0).sum := by
    refine List.sum_nonneg fun x hx => ?_
    obtain ⟨⟨n, settlement⟩, -, rfl⟩ := List.mem_map.mp hx
    dsimp only
    cases hc : calls[n]? with
    | none => exact le_refl 0
    | some c =>
      rw [Option.bind_some]
      cases c.reading settlement with
      | none => exact le_refl 0
      | some reply => exact hpositive c (List.mem_of_getElem? hc) reply
  exact le_add_of_nonneg_right hlater

end Told

/-! ## Time -/

section Time

variable {ι : Type} {redis : RedisServer} {order : List (InventoryEvent ι)} {log : List (ServerEvent ι)}
  {w w' : Wire ι Keyspace}

/-- The time that passes. -/
def ServerEvent.ms : ServerEvent ι → Nat
  | .command _ _ => 0
  | .elapse ms => ms

/-- The time that passes in all, in milliseconds. -/
def ServerEvent.elapsed (log : List (ServerEvent ι)) : Nat := (log.map ServerEvent.ms).sum

theorem elapsed_order (horder : List.Forall₂ (Executes redis) order log) :
    InventoryEvent.elapsed order = ServerEvent.elapsed log := by
  induction horder with
  | nil => rfl
  | @cons event entry order log hevent horder ih =>
    have hms : event.ms = entry.ms := by
      cases hevent with
      | @call i c args hcommand =>
        cases c with
        | elapse ms => cases hcommand
        | _ => rfl
      | elapse ms => rfl
    rw [InventoryEvent.elapsed, List.map_cons, List.sum_cons, hms]
    exact congrArg (entry.ms + ·) ih

variable [DecidableEq ι]

theorem elapsed_step {server : RespServer Keyspace} {a : WireAction ι} (hs : w.step server a = some w') :
    ServerEvent.elapsed w'.log = ServerEvent.elapsed w.log + WireAction.elapsed [a] := by
  cases a with
  | send i args =>
    obtain rfl := Option.some.inj hs
    rfl
  | carry i n =>
    obtain rfl := Option.some.inj hs
    rfl
  | execute i =>
    obtain ⟨⟨args, rest⟩, -, rfl⟩ := Option.map_eq_some_iff.mp hs
    show ServerEvent.elapsed (w.log ++ [.command i args]) = _
    rw [ServerEvent.elapsed, List.map_append, List.sum_append]
    rfl
  | deliver i n =>
    obtain ⟨c, -, rfl⟩ := Option.map_eq_some_iff.mp hs
    rfl
  | elapse ms =>
    obtain rfl := Option.some.inj hs
    show ServerEvent.elapsed (w.log ++ [.elapse ms]) = _
    rw [ServerEvent.elapsed, List.map_append, List.sum_append]
    rfl

theorem elapsed_run {server : RespServer Keyspace} {actions : List (WireAction ι)}
    (hr : w.run server actions = some w') :
    ServerEvent.elapsed w'.log = ServerEvent.elapsed w.log + WireAction.elapsed actions := by
  induction actions generalizing w with
  | nil =>
    obtain rfl := Option.some.inj hr
    rfl
  | cons a actions ih =>
    obtain ⟨w₁, hs, hr⟩ := Wire.run_cons.mp hr
    have hsplit : WireAction.elapsed (a :: actions) = WireAction.elapsed [a] + WireAction.elapsed actions := by
      rw [WireAction.elapsed, List.map_cons, List.sum_cons]
      rfl
    rw [ih hr, elapsed_step hs, hsplit, Nat.add_assoc]

end Time

/-! ## All services -/

section Services

variable {ι : Type} [Fintype ι] [DecidableEq ι] {redis : RedisServer} {ofInt : Int → redis.lua.Num}
  {calls : ι → List InventoryCall} {order : List (InventoryEvent ι)}

/-- The calls in the order put no more in stock than all calls do. -/
theorem sum_stocked_le (horderly : Orderly calls) (hcalls : ∀ i, InventoryEvent.callsOf i order <+: calls i)
    (item : String) : ((InventoryEvent.calls order).map (InventoryCall.stocked item)).sum ≤
      ∑ i, ((calls i).map (InventoryCall.stocked item)).sum := by
  rw [← sum_callsOf]
  refine Finset.sum_le_sum fun i _ => ?_
  obtain ⟨rest, hrest⟩ := hcalls i
  have hnonneg := List.sum_nonneg fun n (hn : n ∈ rest.map (InventoryCall.stocked item)) =>
    horderly.stocked_nonneg (i := i) item n (by
      rw [← hrest, List.map_append]
      exact List.mem_append_right _ hn)
  rw [← hrest, List.map_append, List.sum_append]
  exact le_add_of_nonneg_right hnonneg

theorem modest_of_bounded {actions : List (WireAction ι)} (horderly : Orderly calls)
    (hbounded : Bounded calls actions) (hcalls : ∀ i, InventoryEvent.callsOf i order <+: calls i)
    (htime : InventoryEvent.elapsed order = WireAction.elapsed actions) : Modest order := by
  refine ⟨(horderly.of_sublist fun i => (hcalls i).sublist).calls, fun item => ?_, fun w s id qty ttl hmem => ?_⟩
  · exact lt_of_le_of_lt (sum_stocked_le horderly hcalls item) (hbounded.stock item)
  · obtain ⟨i, hi⟩ := mem_calls.mp hmem
    have hcall := (hcalls i).subset hi
    rw [htime]
    exact hbounded.reserve i w s id qty ttl hcall

theorem promised_nonneg {item : String} {ids : List ReservationId} {c : InventoryCall}
    (hpositive : ∀ w s id (qty ttl : Int), c = .reserve w s qty ttl id → 0 < qty) (reply : InventoryReply) :
    0 ≤ c.promised item ids reply := by
  unfold InventoryCall.promised
  split
  · have hqty := hpositive _ _ _ _ _ rfl
    split
    · exact hqty.le
    · exact le_refl 0
  · exact le_refl 0

/-- What is kept of some reservations that nobody releases is kept. -/
theorem total_kept {tr : Trace} {r : Redis} (item : String) {ids : List ReservationId} (h : LedgerInv tr r)
    (hkept : ∀ id ∈ released tr, id ∉ ids) : total tr item (fun g => g.id ∈ ids) ≤ keptQty tr item :=
  total_mono h.pos fun g _ hin hreleased => hkept g.id hreleased hin

/-- However many services reserve over connections of their own, in whatever pieces the bytes come: what they
have been told is reserved for them, in reservations that nobody releases, and what is left in stock are together
never more than what they have put in stock. The quantities stay below 2^53 in all, the times to live are
positive, and Redis takes their deadlines. -/
theorem wire_never_oversells (hexact : redis.lua.Exact ofInt) (horderly : Orderly calls)
    {actions : List (WireAction ι)} (hbounded : Bounded calls actions) {w : Wire ι Keyspace}
    (hsent : ∀ i, (calls i).map (·.command redis) =
      (WireAction.sentBy i actions).map fun args => some (args.map String.ofList))
    (hrun : (Wire.start (.ofRedis Redis.empty)).run redis.server actions = some w) (item : String)
    (ids : List ReservationId) (hkept : ∀ id ∈ ids, ∀ i w s, .release w s id ∉ calls i) :
    ∃ left : Int, w.store.counter ("stock:" ++ item) = .ok left ∧ 0 ≤ left ∧
      (∑ i, InventoryCall.told item ids (calls i) (w.client i).settled) + left ≤
        ∑ i, ((calls i).map (InventoryCall.stocked item)).sum := by
  have hcommand : ∀ i, ∀ c ∈ calls i, c.command redis ≠ none := by
    intro i c hc hnone
    have hmem : c.command redis ∈ (calls i).map (·.command redis) := List.mem_map_of_mem hc
    rw [hsent, hnone] at hmem
    obtain ⟨args, -, hsome⟩ := List.mem_map.mp hmem
    cases hsome
  have hpositive : ∀ i w s id (qty ttl : Int), .reserve w s qty ttl id ∈ calls i → 0 < qty := by
    intro i w s id qty ttl hc
    by_contra hneg
    exact hcommand i _ hc (if_pos (Int.not_lt.mp hneg))
  obtain ⟨hinv, -⟩ := Wire.inv_start.run hrun
  simp only [List.nil_append] at hinv
  obtain ⟨order, horder, hcalls⟩ := order_of_inv hinv hsent
  have htime : InventoryEvent.elapsed order = WireAction.elapsed actions := by
    rw [elapsed_order horder, elapsed_run hrun]
    exact Nat.zero_add _
  have hmodest := modest_of_bounded horderly hbounded (fun i => (hcalls i).1) htime
  obtain ⟨hstate, hanswers⟩ := executes_order hexact horder hmodest.ranged
  obtain ⟨tr, htr⟩ := exists_recorded order hmodest.orderly
  have hledger := htr.run.inv
  refine ⟨units (InventoryEvent.after Redis.empty order) item, ?_, hledger.nonneg item, ?_⟩
  · rw [hinv.store, hstate]
    exact Keyspace.counter_ofRedis fun v hv => hmodest.after _ v hv
  · have htold : ∀ i, InventoryCall.told item ids (calls i) (w.client i).settled ≤
        ((InventoryEvent.answers i Redis.empty order).map fun a => a.1.promised item ids a.2).sum := by
      intro i
      have hprefix : (InventoryEvent.answers i Redis.empty order).map Prod.fst <+: calls i := by
        rw [map_fst_answers]
        exact (hcalls i).1
      rw [← told_settlements (hanswers i) hprefix]
      refine told_le (fun c hc reply => promised_nonneg (fun w s id qty ttl heq => ?_) reply)
        (hinv.linked i).settled
      exact hpositive i w s id qty ttl (heq ▸ hc)
    have hpromised := (Finset.sum_le_sum fun i _ => htold i).trans_eq (sum_answers _)
    rw [← htr.promised] at hpromised
    have hkept' := total_kept item hledger fun id hid hin => by
      obtain ⟨w, s, hcall⟩ := htr.released id hid
      obtain ⟨i, hi⟩ := mem_calls.mp hcall
      exact hkept id hin i w s ((hcalls i).1.subset hi)
    have hstocked := sum_stocked_le horderly (fun i => (hcalls i).1) item
    rw [← htr.stocked] at hstocked
    have hle := htr.run.kept_le item
    omega

end Services

/-! ## Two services -/

theorem shoppers_orderly : Orderly shoppers := by
  refine ⟨?_, ?_, ?_, ?_, ?_⟩
  · rintro (_ | _) w s qty hmem <;> simp [shoppers] at hmem
    omega
  · rintro (_ | _) w s id qty ttl hmem <;> simp [shoppers] at hmem <;> omega
  · rintro (_ | _) <;> decide
  · rintro (_ | _) (_ | _) hne
    · exact absurd rfl hne
    · show List.Disjoint ["a"] ["b"]
      simp
    · show List.Disjoint ["b"] ["a"]
      simp
    · exact absurd rfl hne
  · rintro i (_ | _) w s id r qty ttl - hmem <;> simp [shoppers, InventoryCall.resolves] at hmem

theorem shoppers_bounded : Bounded shoppers shopperActions := by
  refine ⟨fun item => ?_, ?_⟩
  · rw [Fintype.sum_bool]
    simp only [shoppers, InventoryCall.stocked, List.map_cons, List.map_nil, List.sum_cons, List.sum_nil]
    split <;> omega
  · rintro (_ | _) w s id qty ttl hmem <;> simp [shoppers] at hmem <;>
      obtain ⟨-, -, rfl, rfl, -⟩ := hmem <;> decide +kernel

/-- The two are served in one order, all of their calls are settled, and each is answered as in that order. -/
theorem shoppers_over_wire : ∃ (w : Wire Bool Keyspace) (order : List (InventoryEvent Bool)),
    (Wire.start (.ofRedis Redis.empty)).run doublesServer.server shopperActions = some w ∧
      List.Forall₂ (Executes doublesServer) order w.log ∧
      (∀ i, InventoryEvent.callsOf i order = shoppers i ∧ (w.client i).settled.length = 2) ∧
      w.store = .ofRedis (InventoryEvent.after Redis.empty order) ∧
      ∀ i n settlement, (n, settlement) ∈ (w.client i).settled →
        ∃ c reply, (InventoryEvent.answers i Redis.empty order)[n]? = some (c, reply) ∧
          c.reading settlement = some reply := by
  obtain ⟨w, hrun, hquiet⟩ := shoppers_run
  obtain ⟨order, horder, hcalls, hanswered⟩ := calls_over_wire doubles_exact shoppers_sent hrun
  have htime : InventoryEvent.elapsed order = WireAction.elapsed shopperActions := by
    rw [elapsed_order horder, elapsed_run hrun]
    exact Nat.zero_add _
  have hmodest := modest_of_bounded shoppers_orderly shoppers_bounded (fun i => (hcalls i).1) htime
  obtain ⟨hstore, hanswers⟩ := hanswered hmodest.ranged
  refine ⟨w, order, hrun, horder, fun i => ?_, hstore, hanswers⟩
  cases i with
  | false => exact (hcalls false).2 (hquiet false)
  | true => exact (hcalls true).2 (hquiet true)

/-- Of the two services that want the same five units. -/
theorem shoppers_never_oversell :
    ∃ (w : Wire Bool Keyspace) (left : Int),
      (Wire.start (.ofRedis Redis.empty)).run doublesServer.server shopperActions = some w ∧ 0 ≤ left ∧
        InventoryCall.told "warehouse:sku" ["a", "b"] (shoppers true) (w.client true).settled +
          InventoryCall.told "warehouse:sku" ["a", "b"] (shoppers false) (w.client false).settled + left ≤ 5 := by
  obtain ⟨w, hrun, -⟩ := shoppers_run
  obtain ⟨left, -, hleft, hle⟩ := wire_never_oversells doubles_exact shoppers_orderly shoppers_bounded
    shoppers_sent hrun "warehouse:sku" ["a", "b"] (by rintro id - (_ | _) w s hmem <;> simp [shoppers] at hmem)
  rw [Fintype.sum_bool, Fintype.sum_bool] at hle
  exact ⟨w, left, hrun, hleft, hle⟩

end SupplyChain
