import SupplyChain.Orders.RecoveryTrail
import SupplyChain.Orders.Outcomes
import SupplyChain.Orders.Proofs.TerminalProofs
import SupplyChain.Orders.Proofs.TenantsProofs

/-!
# Proofs: what a recovery adds to the audit trail

The calls of a recovery that return are followed one after the other, over any store that records what it is
told. What differs is the status that the order's object shows after the first transition, and in Postgres
the place of the new events among the old.
-/

namespace Async

variable {S : Interface} {ε σ α β : Type} {h : Handler S ε σ}

theorem exec_bind_inv {p : Prog S ε α} {f : α → Prog S ε β} {s s'' : σ} {b : β}
    (hexec : (p >>= f).exec h s = (s'', .ok b)) :
    ∃ s' a, p.exec h s = (s', .ok a) ∧ (f a).exec h s' = (s'', .ok b) := by
  rw [exec_bind] at hexec
  split at hexec
  · rename_i s' a hp
    exact ⟨s', a, hp, hexec⟩
  · cases hexec

theorem exec_await_inv {c : S.Call} {s s' : σ} {r : S.Reply c}
    (hexec : (Prog.await c : Prog S ε _).exec h s = (s', .ok r)) : h c s = (s', .ok r) := by
  rw [Prog.await, Prog.exec] at hexec
  split at hexec
  · rename_i s₁ r₁ hc
    rw [hc]
    exact hexec
  · cases hexec

end Async

namespace SupplyChain

open Async SagaOrchestrator

/-! ## The calls of a recovery -/

/-- The calls of a recovery that store nothing in the order. -/
def StoresNothing : Call → Prop
  | .publish .. | .cancel _ | .refund _ | .release .. | .get _ => True
  | _ => False

/-- A store that records what it is told about an order: `Shows w log status` is that it holds the events `log`
and that the object of the order shows `status`. If the object is the stored record, it shows what was
stored last. -/
structure Follows {σ : Type} (handle : Handler participants SagaError σ) (atTime : Nat → σ → σ) (order : Order)
    (live : Bool) (Shows : σ → List OrderEvent → OrderStatus → Prop) : Prop where
  update {w w' : σ} {log : List OrderEvent} {status status' : OrderStatus} {type : EventType}
    {detail : EventDetail} {now : Nat} (hshows : Shows w log status)
    (hcall : handle (.updateStatus order.id status' type detail) (atTime now w) = (w', .ok ())) :
    Shows w' (log ++ [⟨type, now, detail⟩]) (if live then status' else status)
  quiet {w w' : σ} {log : List OrderEvent} {status : OrderStatus} {c : Call} {r : c.Reply} {now : Nat}
    (hshows : Shows w log status) (hc : StoresNothing c) (hcall : handle c (atTime now w) = (w', .ok r)) :
    Shows w' log status
  fields {w w' : σ} {log : List OrderEvent} {status : OrderStatus} {entry : Order} {now : Nat}
    (hshows : Shows w log status) (hcall : handle (.fields order) (atTime now w) = (w', .ok entry)) :
    Shows w' log status ∧ entry.status = status

section Trail

variable {σ : Type} {handle : Handler participants SagaError σ} {atTime : Nat → σ → σ} {order : Order}
  {live : Bool} {Shows : σ → List OrderEvent → OrderStatus → Prop} {now : Nat → Nat} {w w' : σ} {n n' : Nat}
  {log : List OrderEvent} {status : OrderStatus}

theorem timed_inv {c : Call} {r : c.Reply} (hcall : timed atTime now handle c (w, n) = ((w', n'), .ok r)) :
    n' = n + 1 ∧ handle c (atTime (now n) w) = (w', .ok r) := by
  unfold timed at hcall
  obtain ⟨hstate, hreply⟩ := Prod.mk.inj hcall
  obtain ⟨rfl, rfl⟩ := Prod.mk.inj hstate
  exact ⟨rfl, Prod.ext rfl hreply⟩

theorem await_inv {c : Call} {r : c.Reply}
    (hexec : (await c).exec (timed atTime now handle) (w, n) = ((w', n'), .ok r)) :
    n' = n + 1 ∧ handle c (atTime (now n) w) = (w', .ok r) :=
  timed_inv (exec_await_inv hexec)

variable (hrec : Follows handle atTime order live Shows) (hshows : Shows w log status)

include hrec hshows

theorem quiet_trail {c : Call} {r : c.Reply} (hc : StoresNothing c)
    (hexec : (await c).exec (timed atTime now handle) (w, n) = ((w', n'), .ok r)) :
    n' = n + 1 ∧ Shows w' log status := by
  obtain ⟨rfl, hcall⟩ := await_inv hexec
  exact ⟨rfl, hrec.quiet hshows hc hcall⟩

theorem transition_trail {status' : OrderStatus} {type : EventType} {detail : EventDetail}
    (hexec : (transition order.id status' type detail).exec (timed atTime now handle) (w, n) =
      ((w', n'), .ok ())) :
    n' = n + 2 ∧ Shows w' (log ++ [⟨type, now n, detail⟩]) (if live then status' else status) := by
  obtain ⟨⟨w₁, n₁⟩, ⟨⟩, hupdate, hpublish⟩ := exec_bind_inv hexec
  obtain ⟨rfl, hcall⟩ := await_inv hupdate
  exact quiet_trail hrec (hrec.update hshows hcall) (c := .publish order.id type detail) trivial hpublish

theorem releaseAll_trail {rs : List Reservation}
    (hexec : (releaseAll rs).exec (timed atTime now handle) (w, n) = ((w', n'), .ok ())) :
    n' = n + rs.length ∧ Shows w' log status := by
  induction rs generalizing w n with
  | nil =>
    cases hexec
    exact ⟨rfl, hshows⟩
  | cons r rs ih =>
    have hsplit : releaseAll (r :: rs) =
        (await (.release r.warehouseId r.sku r.reservationId) >>= fun _ => releaseAll rs) := by
      simp [releaseAll]
    rw [hsplit] at hexec
    obtain ⟨⟨w₁, n₁⟩, reply, hrelease, hrest⟩ := exec_bind_inv hexec
    obtain ⟨rfl, hshows₁⟩ := quiet_trail hrec hshows
      (c := .release r.warehouseId r.sku r.reservationId) trivial hrelease
    obtain ⟨rfl, hend⟩ := ih hshows₁ hrest
    exact ⟨by rw [List.length_cons]; omega, hend⟩

/-- A call that stores nothing in the order, and what follows it. -/
theorem quiet_then {c : Call} (hc : StoresNothing c) {rest : c.Reply → Saga Unit}
    (hexec : (await c >>= rest).exec (timed atTime now handle) (w, n) = ((w', n'), .ok ())) :
    ∃ w₁ r, Shows w₁ log status ∧
      (rest r).exec (timed atTime now handle) (w₁, n + 1) = ((w', n'), .ok ()) := by
  obtain ⟨⟨w₁, n₁⟩, r, hcall, hrest⟩ := exec_bind_inv hexec
  obtain ⟨rfl, hshows₁⟩ := quiet_trail hrec hshows hc hcall
  exact ⟨w₁, r, hshows₁, hrest⟩

theorem compensate_trail {rs : List Reservation} {completed : Completed}
    (hexec : (compensate order rs completed).exec (timed atTime now handle) (w, n) = ((w', n'), .ok ())) :
    n' = n + 2 + (if completed.shipped then 1 else 0) + (if completed.paid then 1 else 0) + rs.length ∧
      Shows w' (log ++ [⟨.compensating, now n, {}⟩]) (if live then .COMPENSATING else status) := by
  obtain ⟨⟨w₁, n₁⟩, ⟨⟩, htransition, hrest⟩ := exec_bind_inv hexec
  obtain ⟨rfl, hshows₁⟩ := transition_trail hrec hshows htransition
  obtain ⟨paid, shipped⟩ := completed
  cases shipped with
  | false =>
    cases paid with
    | false => exact releaseAll_trail hrec hshows₁ hrest
    | true =>
      obtain ⟨w₂, _, hshows₂, hrest₂⟩ := quiet_then hrec hshows₁ (c := .refund order.id) trivial hrest
      exact releaseAll_trail hrec hshows₂ hrest₂
  | true =>
    obtain ⟨w₂, _, hshows₂, hrest₂⟩ := quiet_then hrec hshows₁ (c := .cancel order.id) trivial hrest
    cases paid with
    | false => exact releaseAll_trail hrec hshows₂ hrest₂
    | true =>
      obtain ⟨w₃, _, hshows₃, hrest₃⟩ := quiet_then hrec hshows₂ (c := .refund order.id) trivial hrest₂
      exact releaseAll_trail hrec hshows₃ hrest₃

/-- A recovery that returns has stored its two events, the second with the status that the object of the order
shows after the first. -/
theorem recoverStuck_trail (hopen : isTerminalStatus status = false) {o : Order}
    (hexec : (recoverStuck order).exec (timed atTime now handle) (w, n) = ((w', n'), .ok o)) :
    ∃ w₀ entry status', handle (.fields order) (atTime (now n) w) = (w₀, .ok entry) ∧
      Shows w' (log ++ [⟨.compensating, now (n + 1), {}⟩] ++ [⟨.cancelled, now (n + cancellingCall entry),
        recoveredDetail (if live then .COMPENSATING else status)⟩]) status' := by
  obtain ⟨⟨w₀, n₀⟩, entry, hentry, hexec₀⟩ := exec_bind_inv hexec
  obtain ⟨rfl, hfields⟩ := await_inv hentry
  obtain ⟨hshows₀, hstatus⟩ := hrec.fields hshows hfields
  rw [hstatus, if_neg (by simp [hopen])] at hexec₀
  obtain ⟨⟨w₁, n₁⟩, ⟨⟩, hcompensate, hexec₁⟩ := exec_bind_inv hexec₀
  obtain ⟨hn₁, hshows₁⟩ := compensate_trail hrec hshows₀ hcompensate
  obtain ⟨⟨w₂, n₂⟩, later, hlater, hexec₂⟩ := exec_bind_inv hexec₁
  obtain ⟨hn₂, hfields₂⟩ := await_inv hlater
  obtain ⟨hshows₂, hstatus₂⟩ := hrec.fields hshows₁ hfields₂
  obtain ⟨⟨w₃, n₃⟩, ⟨⟩, hfail, hexec₃⟩ := exec_bind_inv hexec₂
  obtain ⟨-, hshows₃⟩ := transition_trail hrec hshows₂ hfail
  obtain ⟨⟨w₄, n₄⟩, found, hget, hexec₄⟩ := exec_bind_inv hexec₃
  obtain ⟨-, hshows₄⟩ := quiet_trail hrec hshows₃ (c := .get order.id) trivial hget
  have hend : w₄ = w' := by
    cases found with
    | none => cases hexec₄
    | some order' => exact congrArg (fun s => s.1.1) hexec₄
  refine ⟨w₀, entry, if live then .CANCELLED else if live then .COMPENSATING else status, hfields, ?_⟩
  have hnow : n₂ = n + cancellingCall entry := by
    rw [hn₂, hn₁, cancellingCall]
    omega
  rw [← hnow, ← hend]
  rw [hstatus₂] at hshows₄
  exact hshows₄

end Trail

/-! ## The two stores -/

theorem StoresNothing.ne_create {c : Call} (hc : StoresNothing c) (a : String) (b : List OrderLine) (x : Int)
    (y : Option String) : c ≠ .create a b x y := by
  rintro rfl
  exact hc

theorem StoresNothing.ne_updateStatus {c : Call} (hc : StoresNothing c) (id : OrderId) (status : OrderStatus)
    (type : EventType) (detail : EventDetail) : c ≠ .updateStatus id status type detail := by
  rintro rfl
  exact hc

/-- The record of the order in memory. -/
structure StoredInMemory (order : Order) (w : World) (log : List OrderEvent) (status : OrderStatus) :
    Prop where
  live : w.store.driver.live = true
  record : ∃ o, w.store.get order.id = some o ∧ o.history = log ∧ o.status = status

theorem follows_inMemory (order : Order) :
    Follows participate World.atTime order true (StoredInMemory order) where
  update := by
    intro w w' log status status' type detail now hshows hcall
    obtain ⟨hlive, o, hget, rfl, rfl⟩ := hshows
    obtain ⟨store', hst, hdriver, hget'⟩ :=
      OrderStore.updateStatus_of_get hget status' ⟨type, now, detail⟩
    have hcall' : participate (.updateStatus order.id status' type detail) (w.atTime now) =
        ({ w.atTime now with store := store' }, .ok ()) := by
      simp only [participate, World.atTime, hst]
    obtain ⟨rfl, -⟩ := Prod.mk.inj (hcall'.symm.trans hcall)
    exact ⟨by rw [hdriver, hlive], _, (hget' _).trans (if_pos rfl), rfl, rfl⟩
  quiet := by
    intro w w' log status c r now hshows hc hcall
    have hstore : w'.store = w.store := by
      have hsame := participate_store (w := w.atTime now) hc.ne_create hc.ne_updateStatus
      rwa [hcall] at hsame
    exact ⟨hstore ▸ hshows.live, hstore ▸ hshows.record⟩
  fields := by
    intro w w' log status entry now hshows hcall
    obtain ⟨hlive, o, hget, rfl, rfl⟩ := hshows
    obtain ⟨rfl, hentry⟩ := Prod.mk.inj hcall
    refine ⟨⟨hlive, o, hget, rfl, rfl⟩, ?_⟩
    have hfields : w.store.fields order = entry := Except.ok.inj hentry
    rw [← hfields, OrderStore.fields, if_pos hlive, hget]
    rfl

variable {pg : Postgres}

theorem participatePg_tables (ro : RowOrder) {c : Call} (hc : StoresNothing c) (w : PgWorld pg) :
    (participatePg ro c w).1.tables = w.tables := by
  cases c with
  | release warehouseId sku reservationId => rfl
  | get id =>
    rw [participatePg.eq_def]
    dsimp only
    split <;> rfl
  | publish orderId type payload => rfl
  | refund orderId => rfl
  | cancel orderId => rfl
  | _ => exact absurd hc id

/-- The rows of the order in the tables. The object is a copy. -/
structure StoredInPg (order : Order) (w : PgWorld pg) (log : List OrderEvent) (status : OrderStatus) :
    Prop where
  uuid : order.id ∈ w.tables.ids
  recorded : w.tables.recorded order.id = log
  copy : order.status = status

theorem follows_pg (ro : RowOrder) (order : Order) :
    Follows (participatePg ro) (@PgWorld.atTime pg) order false (StoredInPg order) where
  update := by
    intro w w' log status status' type detail now hshows hcall
    obtain ⟨huuid, rfl, rfl⟩ := hshows
    cases hupdate : w.tables.updateStatus order.id status' ⟨type, now, detail⟩ with
    | none =>
      have hcall' : participatePg ro (.updateStatus order.id status' type detail) (w.atTime now) =
          (w.atTime now, .error (.unknownOrder order.id)) := by
        simp only [participatePg, PgWorld.atTime, World.atTime, hupdate]
      cases (Prod.mk.inj (hcall'.symm.trans hcall)).2
    | some tables =>
      have hcall' : participatePg ro (.updateStatus order.id status' type detail) (w.atTime now) =
          ({ w.atTime now with tables }, .ok ()) := by
        simp only [participatePg, PgWorld.atTime, World.atTime, hupdate]
      obtain ⟨rfl, -⟩ := Prod.mk.inj (hcall'.symm.trans hcall)
      obtain ⟨-, -, -, hstorable⟩ := (w.tables.updateStatus_iff order.id status' _).mp ⟨tables, hupdate⟩
      have hupdated := Tables.perform_update status' huuid hstorable
      rw [Tables.perform, hupdate, Option.getD_some] at hupdated
      exact ⟨hupdated.ids ▸ huuid, by rw [hupdated.recorded, if_pos rfl], rfl⟩
  quiet := by
    intro w w' log status c r now hshows hc hcall
    have htables : w'.tables = w.tables := by
      have hsame := participatePg_tables ro hc (w.atTime now)
      rwa [hcall] at hsame
    exact ⟨htables ▸ hshows.uuid, htables ▸ hshows.recorded, hshows.copy⟩
  fields := by
    intro w w' log status entry now hshows hcall
    obtain ⟨rfl, hentry⟩ := Prod.mk.inj hcall
    exact ⟨⟨hshows.uuid, hshows.recorded, hshows.copy⟩, by rw [← Except.ok.inj hentry, hshows.copy]⟩

/-! ## The place of the new events -/

section Dates

variable {log : List OrderEvent} {first last : OrderEvent}

theorem orderedInsert_append {e : OrderEvent} {l rest : List OrderEvent} (he : e.at ≤ first.at) :
    (l ++ first :: rest).orderedInsert (fun x y => x.at ≤ y.at) e =
      l.orderedInsert (fun x y => x.at ≤ y.at) e ++ first :: rest := by
  induction l with
  | nil => rw [List.nil_append, List.orderedInsert_cons, if_pos he]; rfl
  | cons x l ih =>
    rw [List.cons_append, List.orderedInsert_cons, List.orderedInsert_cons]
    split
    · rfl
    · rw [ih, List.cons_append]

theorem sorted_append (hlog : ∀ e ∈ log, e.at ≤ first.at) (hlast : first.at ≤ last.at) :
    (log ++ [first, last]).insertionSort (fun x y => x.at ≤ y.at) =
      log.insertionSort (fun x y => x.at ≤ y.at) ++ [first, last] := by
  induction log with
  | nil =>
    show List.orderedInsert (fun x y => x.at ≤ y.at) first [last] = [first, last]
    rw [List.orderedInsert_cons, if_pos hlast]
  | cons e log ih =>
    obtain ⟨he, hlog⟩ := List.forall_mem_cons.mp hlog
    rw [List.cons_append, List.insertionSort_cons, List.insertionSort_cons, ih hlog, orderedInsert_append he]

variable (log) in
/-- Two new events come last if and only if they are dated in this order, and not before the old ones. -/
theorem sorted_append_iff (date date' : Nat) (hne : first.type ≠ last.type) :
    (log ++ [first, last]).insertionSort (fun x y => x.at ≤ y.at) =
        log.insertionSort (fun x y => x.at ≤ y.at) ++
          [{ first with «at» := date }, { last with «at» := date' }] ↔
      (date = first.at ∧ date' = last.at) ∧ (∀ e ∈ log, e.at ≤ first.at) ∧ first.at ≤ last.at := by
  constructor
  · intro heq
    have hperm : [first, last].Perm [{ first with «at» := date }, { last with «at» := date' }] := by
      refine (List.perm_append_left_iff log).mp ?_
      have hold := (List.perm_insertionSort (fun x y : OrderEvent => x.at ≤ y.at) log).append_right
        [{ first with «at» := date }, { last with «at» := date' }]
      exact (List.perm_insertionSort _ _).symm.trans (heq ▸ hold)
    have hfirst : { first with «at» := date } = first := by
      have hmem := hperm.mem_iff.mpr (List.mem_cons_self (a := { first with «at» := date }))
      simp only [List.mem_cons, List.not_mem_nil, or_false] at hmem
      refine hmem.resolve_right fun h => ?_
      have htype := congrArg OrderEvent.type h
      exact hne htype
    have hlast : { last with «at» := date' } = last := by
      have hmem := hperm.mem_iff.mpr
        (List.mem_cons_of_mem _ (List.mem_cons_self (a := { last with «at» := date' })))
      simp only [List.mem_cons, List.not_mem_nil, or_false] at hmem
      refine hmem.resolve_left fun h => ?_
      have htype := congrArg OrderEvent.type h
      exact hne htype.symm
    have hsorted := List.pairwise_insertionSort (fun x y : OrderEvent => x.at ≤ y.at) (log ++ [first, last])
    rw [heq, hfirst, hlast, List.pairwise_append] at hsorted
    obtain ⟨-, hnew, hold⟩ := hsorted
    refine ⟨⟨congrArg OrderEvent.at hfirst, congrArg OrderEvent.at hlast⟩, fun e he => ?_, ?_⟩
    · exact hold e ((List.mem_insertionSort _).mpr he) first List.mem_cons_self
    · exact List.rel_of_pairwise_cons hnew List.mem_cons_self
  · rintro ⟨⟨rfl, rfl⟩, hlog, hlast⟩
    exact sorted_append hlog hlast

end Dates

/-! ## Orders that Postgres returns -/

namespace Tables

variable {t : Tables pg} {order : Order} {id : OrderId}

theorem row_of_fetch {ro : RowOrder} {r : Reading} {orders : List Order} (h : t.fetch ro r = some orders)
    (hmem : order ∈ orders) : ∃ f ∈ r.found, order.id = f.1.id ∧ order.status = f.1.status := by
  have hfound : ∀ (r : Reading) {orders : List Order}, r.returned = some orders → order ∈ orders →
      ∃ f ∈ r.found, order.id = f.1.id ∧ order.status = f.1.status := by
    intro r orders hreturned hmem
    obtain ⟨lines, -, hreturned⟩ := Option.bind_eq_some_iff.mp hreturned
    obtain ⟨history, -, hreturned⟩ := Option.bind_eq_some_iff.mp hreturned
    obtain rfl := Option.some.inj hreturned
    obtain ⟨f, hf, rfl⟩ := List.mem_map.mp hmem
    exact ⟨f, hf, rfl, rfl⟩
  unfold fetch at h
  cases hreturned : r.returned with
  | some orders' =>
    rw [hreturned] at h
    obtain rfl := Option.some.inj h
    exact hfound r hreturned hmem
  | none =>
    rw [hreturned] at h
    obtain ⟨lines, -, h⟩ := Option.bind_eq_some_iff.mp h
    obtain ⟨history, -, h⟩ := Option.bind_eq_some_iff.mp h
    exact hfound { r with lines := some lines, history := some history } h hmem

theorem start_found (found : List (OrderRow × OrderId)) : (Reading.start found).found = found := by
  unfold Reading.start
  split <;> rfl

/-- An order that the store returns has the id and the status of a row. -/
theorem Returns.row (h : t.Returns order) :
    ∃ row ∈ t.orders, order.id = row.id ∧ order.status = row.status := by
  cases h with
  | @get ro id scope h =>
    obtain ⟨row, hrow, h⟩ := Option.bind_eq_some_iff.mp h
    obtain ⟨orders, hfetch, h⟩ := Option.bind_eq_some_iff.mp h
    have hmem : order ∈ orders := List.mem_of_head? (Option.some.inj h)
    obtain ⟨f, hf, hid, hstatus⟩ := row_of_fetch hfetch hmem
    rw [Reading.get, start_found] at hf
    obtain ⟨row', hrow', rfl⟩ := List.mem_map.mp hf
    obtain ⟨u, -, hrow⟩ := Option.bind_eq_some_iff.mp hrow
    obtain ⟨visible, -, hrow⟩ := Option.bind_eq_some_iff.mp hrow
    have hhead := (Option.some.inj hrow).trans (Option.mem_toList.mp hrow')
    exact ⟨row', (List.mem_filter.mp (List.mem_of_head? hhead)).1, hid, hstatus⟩
  | @nonTerminal ro orders h hmem =>
    obtain ⟨f, hf, hid, hstatus⟩ := row_of_fetch h hmem
    rw [Reading.hydrateAll, start_found] at hf
    obtain ⟨row, hrow, rfl⟩ := List.mem_map.mp hf
    exact ⟨row, (List.mem_filter.mp (mem_byCreation.mp hrow)).1, hid, hstatus⟩

/-- What a read of an order shows of it. -/
theorem get_of_mem (ro : RowOrder) (hid : id ∈ t.ids) :
    ∃ o, t.get ro id none = some (some o) ∧
      o.history = (t.recorded id).insertionSort (fun x y => x.at ≤ y.at) ∧
        ∃ row ∈ t.orders, row.id = id ∧ o.status = row.status := by
  obtain ⟨row, hrow, rfl⟩ := List.mem_map.mp hid
  refine ⟨_, (get_some_iff ro (uuid_of_mem hid) rfl).mpr ⟨row, hrow, rfl, rfl, rfl⟩, ?_, row, hrow, rfl, rfl⟩
  exact historyOf_eq (List.mem_singleton.mpr rfl)

end Tables

/-! ## The trails -/

theorem first_ne_last (date date' : Nat) (previousStatus : OrderStatus) :
    (⟨.compensating, date, {}⟩ : OrderEvent).type ≠
      (⟨.cancelled, date', recoveredDetail previousStatus⟩ : OrderEvent).type :=
  EventType.noConfusion

/-- With the store in memory, a recovery leaves the trail that it ought to leave if and only if the order was
`COMPENSATING` already; with Postgres, if and only if the dates of its events are in order. -/
theorem recovery_trail_iff (order : Order) (now : Nat → Nat) (hopen : isTerminalStatus order.status = false) :
    (∀ (w w' : World) (o : Order) (n : Nat), w.store.driver = .inMemory → w.store.get order.id = some order →
      (recoverStuck order).exec (timed World.atTime now participate) (w, 0) = ((w', n), .ok o) →
        (RecoveryTrail (w.store.get order.id) (w'.store.get order.id) ↔ order.status = .COMPENSATING)) ∧
    ∀ (pg : Postgres) (ro : RowOrder) (w w' : PgWorld pg) (o : Order) (n : Nat), w.tables.Returns order →
      (recoverStuck order).exec (timed PgWorld.atTime now (participatePg ro)) (w, 0) = ((w', n), .ok o) →
        (RecoveryTrail (w.tables.get ro order.id none).join (w'.tables.get ro order.id none).join ↔
          (∀ e ∈ w.tables.order_events, e.order_id = order.id → e.at ≤ now 1) ∧
            now 1 ≤ now (cancellingCall order)) := by
  constructor
  · intro w w' o n hdriver hget hexec
    have hshows : StoredInMemory order w order.history order.status :=
      ⟨by rw [hdriver]; rfl, order, hget, rfl, rfl⟩
    obtain ⟨w₀, entry, status', -, -, new, hnew, hhistory, -⟩ :=
      recoverStuck_trail (follows_inMemory order) hshows hopen hexec
    rw [hget, hnew]
    constructor
    · rintro ⟨_, _, date, date', ⟨⟩, ⟨⟩, htrail⟩
      rw [hhistory, List.append_assoc, List.append_cancel_left_eq] at htrail
      have hdetail := congrArg (fun events => events[1]?.map fun e => e.detail.previousStatus) htrail
      exact (Option.some.inj (Option.some.inj hdetail)).symm
    · intro hstatus
      refine ⟨order, new, now (0 + 1), now (0 + cancellingCall entry), rfl, rfl, ?_⟩
      rw [hhistory, List.append_assoc, hstatus]
      rfl
  · intro pg ro w w' o n hreturns hexec
    obtain ⟨row, hrow, hid, hstatus⟩ := hreturns.row
    have hmem : order.id ∈ w.tables.ids := hid ▸ List.mem_map_of_mem hrow
    have hshows : StoredInPg order w (w.tables.recorded order.id) order.status := ⟨hmem, rfl, rfl⟩
    obtain ⟨w₀, entry, status', hentry, hmem', hrecorded, -⟩ :=
      recoverStuck_trail (follows_pg ro order) hshows hopen hexec
    obtain rfl : order = entry := Except.ok.inj (Prod.mk.inj hentry).2
    obtain ⟨old, hold, hhistory, row', hrow', hid', hstatus'⟩ := Tables.get_of_mem ro hmem
    obtain ⟨new, hnew, hhistory', -⟩ := Tables.get_of_mem ro hmem'
    have hsame : old.status = order.status := by
      rw [hstatus', hstatus, Tables.row_ext hrow' hrow (hid'.trans hid)]
    have hdates : (∀ e ∈ w.tables.order_events, e.order_id = order.id → e.at ≤ now 1) ↔
        ∀ e ∈ w.tables.recorded order.id, e.at ≤ now 1 := by
      rw [Tables.recorded, List.forall_mem_map]
      simp only [List.mem_filter, decide_eq_true_eq, and_imp]
    rw [hrecorded, List.append_assoc, Nat.zero_add, Nat.zero_add] at hhistory'
    rw [hold, hnew, hdates]
    have hsort := fun date date' => sorted_append_iff (w.tables.recorded order.id) date date'
      (first_ne_last (now 1) (now (cancellingCall order)) order.status)
    constructor
    · rintro ⟨_, _, date, date', ⟨⟩, ⟨⟩, htrail⟩
      rw [hhistory', hhistory, hsame] at htrail
      exact ((hsort date date').mp htrail).2
    · intro hordered
      refine ⟨old, new, now 1, now (cancellingCall order), rfl, rfl, ?_⟩
      rw [hhistory', hhistory, hsame]
      exact (hsort _ _).mpr ⟨⟨rfl, rfl⟩, hordered⟩

/-- An order that got stuck before anything was done for it. -/
def heldOrder (status : OrderStatus) : Order :=
  { freshOrder "00000000-0000-4000-8000-00000000000a" [] with status }

/-- The world that the order is left in. -/
def heldWorld (status : OrderStatus) : World :=
  startWorld .inMemory [heldOrder status] 5 (fun _ => false) fun _ => false

/-- Its recovery in memory, the clock going on by one at each call. -/
def recoveredInMemory (status : OrderStatus) : (World × Nat) × Except SagaError Order :=
  (recoverStuck (heldOrder status)).exec (timed World.atTime (fun n => n) participate) (heldWorld status, 0)

/-- The tables that the order is left in. -/
def heldTables (status : OrderStatus) : Tables .plain :=
  (Tables.empty.create (heldOrder status)).getD .empty

/-- Its recovery over Postgres, with a clock that ticks at every call. -/
def recoveredInPg (status : OrderStatus) : (PgWorld .plain × Nat) × Except SagaError Order :=
  (recoverStuck (heldOrder status)).exec (timed PgWorld.atTime (fun n => n) (participatePg .inserted))
    (⟨heldWorld status, heldTables status⟩, 0)

theorem heldOrders_recovered :
    RecoveryTrail (some (heldOrder .COMPENSATING))
        ((recoveredInMemory .COMPENSATING).1.1.store.get (heldOrder .COMPENSATING).id) ∧
      RecoveryTrail
        ((heldTables .INVENTORY_RESERVED).get .inserted (heldOrder .INVENTORY_RESERVED).id none).join
        ((recoveredInPg .INVENTORY_RESERVED).1.1.tables.get .inserted
          (heldOrder .INVENTORY_RESERVED).id none).join := by
  constructor
  · have hreturns : (recoveredInMemory .COMPENSATING).2 = .ok
        { heldOrder .CANCELLED with
          history := [⟨.compensating, 1, {}⟩, ⟨.cancelled, 4, recoveredDetail .COMPENSATING⟩] } := by rfl
    have hiff := (recovery_trail_iff (heldOrder .COMPENSATING) (fun n => n) rfl).1
    exact (hiff (heldWorld .COMPENSATING) _ _ _ rfl rfl (Prod.ext rfl hreturns)).mpr rfl
  · have hreturns : (recoveredInPg .INVENTORY_RESERVED).2 = .ok
        { heldOrder .CANCELLED with
          history := [⟨.compensating, 1, {}⟩, ⟨.cancelled, 4, recoveredDetail .INVENTORY_RESERVED⟩] } := by rfl
    have hstored : (heldTables .INVENTORY_RESERVED).get .inserted (heldOrder .INVENTORY_RESERVED).id none =
        some (some (heldOrder .INVENTORY_RESERVED)) := by decide +kernel
    have hiff := (recovery_trail_iff (heldOrder .INVENTORY_RESERVED) (fun n => n) rfl).2 .plain .inserted
    refine (hiff ⟨heldWorld .INVENTORY_RESERVED, heldTables .INVENTORY_RESERVED⟩ _ _ _ (.get hstored)
      (Prod.ext rfl hreturns)).mpr ⟨?_, by decide⟩
    have hnone : (heldTables .INVENTORY_RESERVED).order_events = [] := by decide +kernel
    rw [hnone]
    exact List.forall_mem_nil _

/-- A recovery in memory records that the order was `COMPENSATING` before. -/
theorem heldOrder_misrecorded :
    (heldWorld .INVENTORY_RESERVED).store.get (heldOrder .INVENTORY_RESERVED).id =
        some (heldOrder .INVENTORY_RESERVED) ∧
      (recoveredInMemory .INVENTORY_RESERVED).2.isOk ∧
      ¬ RecoveryTrail (some (heldOrder .INVENTORY_RESERVED))
        ((recoveredInMemory .INVENTORY_RESERVED).1.1.store.get (heldOrder .INVENTORY_RESERVED).id) := by
  have hstored : (recoveredInMemory .INVENTORY_RESERVED).1.1.store.get (heldOrder .INVENTORY_RESERVED).id =
      some { heldOrder .CANCELLED with
        history := [⟨.compensating, 1, {}⟩, ⟨.cancelled, 4, recoveredDetail .COMPENSATING⟩] } := by rfl
  refine ⟨rfl, rfl, ?_⟩
  rw [hstored]
  rintro ⟨old, new, date, date', ⟨⟩, ⟨⟩, htrail⟩
  have hdetail := congrArg (fun events => events[1]?.map fun e => e.detail.previousStatus) htrail
  exact OrderStatus.noConfusion (Option.some.inj (Option.some.inj hdetail))

end SupplyChain
