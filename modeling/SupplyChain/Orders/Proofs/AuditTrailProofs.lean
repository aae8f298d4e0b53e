import SupplyChain.Orders.AuditTrail
import SupplyChain.Orders.Proofs.TerminalProofs

/-!
# Proofs: the audit trail of sequential executions

An execution appends only what may follow the status that it knows, and in a sequential execution that is
the status of the last entry.
-/

namespace SupplyChain

open Async SagaOrchestrator

/-! ## The language -/

section Language

variable {types forward : List EventType} {e : EventType}

theorem lastStatus_append (types : List EventType) (e : EventType) :
    lastStatus (types ++ [e]) = e.status := by
  simp [lastStatus]

theorem mem_forward_prefix (h : forward <+: forwardTypes) : forward = [] ∨
    forward = [.inventoryReserved] ∨ forward = [.inventoryReserved, .paymentCharged] ∨
    forward = forwardTypes := by
  simp only [forwardTypes, List.prefix_cons_iff, List.prefix_nil] at h
  rcases h with rfl | ⟨t, rfl, rfl | ⟨t, rfl, rfl | ⟨t, rfl, rfl⟩⟩⟩ <;> simp [forwardTypes]

theorem AuditTrail.nil : AuditTrail [] := ⟨[], [], rfl, List.nil_prefix, .open⟩

/-- A forward step leads to a forward trail or confirms it. -/
theorem AuditTrail.forward_step (h : forward <+: forwardTypes)
    (hnext : (lastStatus forward).next e = true) : AuditTrail (forward ++ [e]) := by
  have hcompensating : AuditTrail (forward ++ [.compensating]) := ⟨_, _, rfl, h, .compensating 0⟩
  have hstep : ∀ {f e}, f ++ [e] <+: forwardTypes → AuditTrail (f ++ [e]) := fun {f e} hf =>
    ⟨f ++ [e], [], (List.append_nil _).symm, hf, .open⟩
  rcases mem_forward_prefix h with rfl | rfl | rfl | rfl
  · cases e with
    | inventoryReserved => exact hstep (by decide)
    | compensating => exact hcompensating
    | _ => cases hnext
  · cases e with
    | paymentCharged => exact hstep (by decide)
    | compensating => exact hcompensating
    | _ => cases hnext
  · cases e with
    | shippingScheduled => exact hstep (by decide)
    | compensating => exact hcompensating
    | _ => cases hnext
  · cases e with
    | confirmed => exact ⟨_, _, rfl, h, .confirmed rfl⟩
    | compensating => exact hcompensating
    | _ => cases hnext

/-- A trail that is extended by a step its last status allows is a trail. -/
theorem AuditTrail.step (h : AuditTrail types) (hnext : (lastStatus types).next e = true) :
    AuditTrail (types ++ [e]) := by
  obtain ⟨forward, closing, rfl, hforward, hclosing⟩ := h
  cases hclosing with
  | «open» =>
    rw [List.append_nil] at hnext ⊢
    exact AuditTrail.forward_step hforward hnext
  | confirmed hall =>
    rw [lastStatus_append] at hnext
    cases hnext
  | compensating n =>
    rw [List.replicate_succ', ← List.append_assoc, lastStatus_append] at hnext
    rw [List.append_assoc]
    cases e with
    | compensating =>
      rw [← List.replicate_succ']
      exact ⟨_, _, rfl, hforward, .compensating (n + 1)⟩
    | cancelled => exact ⟨_, _, rfl, hforward, .cancelled n⟩
    | _ => cases hnext
  | cancelled n =>
    rw [← List.append_assoc, lastStatus_append] at hnext
    cases hnext

/-- A trail has at most one ending event, and only as its last. -/
theorem AuditTrail.ends (h : AuditTrail types) :
    types.count .confirmed + types.count .cancelled ≤ 1 ∧
      ∀ e ∈ types.dropLast, e.ends = false := by
  obtain ⟨forward, closing, rfl, hforward, hclosing⟩ := h
  have hsteps : ∀ e ∈ forward, e.ends = false := by
    intro e he
    have hmem := hforward.subset he
    simp only [forwardTypes, List.mem_cons, List.not_mem_nil, or_false] at hmem
    rcases hmem with rfl | rfl | rfl <;> rfl
  have hconfirmed : forward.count .confirmed = 0 :=
    List.count_eq_zero.mpr fun hmem => by cases hsteps _ hmem
  have hcancelled : forward.count .cancelled = 0 :=
    List.count_eq_zero.mpr fun hmem => by cases hsteps _ hmem
  cases hclosing with
  | «open» =>
    rw [List.append_nil]
    exact ⟨by omega, fun e he => hsteps e (List.dropLast_subset _ he)⟩
  | confirmed hall =>
    rw [List.dropLast_concat]
    exact ⟨by simp [hconfirmed, hcancelled], hsteps⟩
  | compensating n =>
    refine ⟨by simp [hconfirmed, hcancelled, List.count_replicate], fun e he => ?_⟩
    rcases List.mem_append.mp (List.dropLast_subset _ he) with he | he
    · exact hsteps e he
    · rw [(List.mem_replicate.mp he).2]
      rfl
  | cancelled n =>
    rw [← List.append_assoc, List.dropLast_concat]
    refine ⟨by simp [hconfirmed, hcancelled, List.count_replicate], fun e he => ?_⟩
    rcases List.mem_append.mp he with he | he
    · exact hsteps e he
    · rw [(List.mem_replicate.mp he).2]
      rfl

end Language

/-! ## Outlines -/

/-- An execution writes the order `id` only, and stores a step that its status allows. -/
def soloContract (id : OrderId) : Contract participants SagaError OrderStatus where
  pre status c :=
    match c with
    | .create .. => False
    | .fields order => order.id = id
    | .updateStatus x status' type _ => x = id ∧ status.next type = true ∧ status' = type.status
    | _ => True
  ans status c r :=
    match c, r with
    | .get x, r => x = id → ∃ order, r = some order ∧ order.id = id ∧ order.status = status
    | .fields order, entry => entry.id = id ∧ (order.status = status → entry.status = status)
    | _, _ => True
  thrown _ _ := True

section Outlines

variable {id : OrderId} {order : Order} {status : OrderStatus}

/-- The outline of an execution of the order `id` alone. -/
abbrev SoloOutline {α : Type} (id : OrderId) (Q : α → OrderStatus → Prop) (p : Saga α)
    (status : OrderStatus) : Prop :=
  Outline (solo id).note (soloContract id) Q p status

theorem transition_solo (type : EventType) (h : status.next type = true) (detail : EventDetail) :
    SoloOutline id (fun _ status' => status' = type.status)
      (transition id type.status type detail) status :=
  ⟨⟨rfl, h, rfl⟩, fun _ _ => ⟨trivial, fun _ _ => rfl⟩⟩

theorem mustGet_solo : SoloOutline id (fun _ _ => True) (mustGet id) status := by
  refine ⟨trivial, fun r hr => ?_⟩
  obtain ⟨order, rfl, -⟩ := hr rfl
  trivial

/-- A loop over calls that do not store anything. -/
theorem silentLoop_solo {β : Type} {f : Reservation → Saga β} (rs : List Reservation)
    (hf : ∀ r status, SoloOutline id (fun _ status' => status' = status) (f r) status) :
    SoloOutline id (fun _ status' => status' = status) (do for r in rs do let _ ← f r) status :=
  Outline.forIn (J := fun _ _ status' => status' = status)
    (fun _ r _ _ hstatus => hstatus ▸ hf r status) rs [] status rfl

theorem compensate_solo (hid : order.id = id) (h : status.next .compensating = true)
    (rs : List Reservation) (completed : Completed) :
    SoloOutline id (fun _ status' => status' = .COMPENSATING) (compensate order rs completed)
      status := by
  subst hid
  unfold compensate
  refine Outline.bind (transition_solo .compensating h {}) ?_
  rintro _ _ rfl
  have hrelease : SoloOutline order.id (fun _ status' => status' = .COMPENSATING) (releaseAll rs)
      .COMPENSATING :=
    silentLoop_solo rs fun _ _ => ⟨trivial, fun _ _ => rfl⟩
  obtain ⟨paid, shipped⟩ := completed
  cases shipped <;> cases paid
  · exact hrelease
  · exact ⟨trivial, fun _ _ => hrelease⟩
  · exact ⟨trivial, fun _ _ => hrelease⟩
  · exact ⟨trivial, fun _ _ => ⟨trivial, fun _ _ => hrelease⟩⟩

theorem fail_solo (reason : String) (detail : EventDetail) :
    SoloOutline id (fun _ status' => status' = .CANCELLED) (fail id reason detail)
      .COMPENSATING :=
  transition_solo .cancelled rfl _

theorem abort_solo (hid : order.id = id) (h : status.next .compensating = true)
    (rs : List Reservation) (completed : Completed) (reason : String) (detail : EventDetail) :
    SoloOutline id (fun _ _ => True) (abort id order rs completed reason detail) status := by
  unfold abort
  refine Outline.bind (compensate_solo hid h rs completed) ?_
  rintro _ _ rfl
  rw [hid]
  exact Outline.bind (fail_solo reason detail) fun _ _ _ => mustGet_solo

theorem reserveLines_solo (lines : List OrderLine) :
    ∀ rs, SoloOutline id (fun _ status' => status' = status) (reserveLines lines rs) status := by
  induction lines with
  | nil => exact fun rs => rfl
  | cons line lines ih =>
    refine fun rs => ⟨trivial, fun r _ => ?_⟩
    cases r with
    | rejected _ _ => rfl
    | accepted _ _ => exact ih _

theorem confirm_solo (hid : order.id = id) (rs : List Reservation) :
    SoloOutline id (fun _ _ => True) (confirm id order rs) .SHIPPING_SCHEDULED := by
  unfold confirm
  refine Outline.bind (silentLoop_solo rs fun _ _ => ⟨trivial, fun _ _ => rfl⟩) ?_
  rintro _ _ rfl
  rw [hid]
  exact Outline.bind (transition_solo .confirmed rfl {}) fun _ _ _ => mustGet_solo

theorem ship_solo (hid : order.id = id) (rs : List Reservation) :
    SoloOutline id (fun _ _ => True) (ship id order rs) .PAYMENT_CHARGED := by
  refine ⟨trivial, fun r _ => ?_⟩
  cases r with
  | failed reason => exact abort_solo hid rfl rs _ _ _
  | ok shipmentId =>
    have hstep : SoloOutline id (fun _ status' => status' = .SHIPPING_SCHEDULED)
        (transition order.id .SHIPPING_SCHEDULED .shippingScheduled
          { shipmentId := some shipmentId }) .PAYMENT_CHARGED :=
      hid ▸ transition_solo .shippingScheduled rfl _
    show SoloOutline id _ (transition order.id .SHIPPING_SCHEDULED .shippingScheduled _ >>= fun _ =>
      confirm id order rs) _
    refine Outline.bind hstep ?_
    rintro _ _ rfl
    exact confirm_solo hid rs

theorem pay_solo (hid : order.id = id) (rs : List Reservation) :
    SoloOutline id (fun _ _ => True) (pay id order rs) .INVENTORY_RESERVED := by
  refine ⟨trivial, fun r _ => ?_⟩
  cases r with
  | failed reason => exact abort_solo hid rfl rs _ _ _
  | ok paymentId =>
    have hstep : SoloOutline id (fun _ status' => status' = .PAYMENT_CHARGED)
        (transition order.id .PAYMENT_CHARGED .paymentCharged
          { paymentId := some paymentId }) .INVENTORY_RESERVED :=
      hid ▸ transition_solo .paymentCharged rfl _
    show SoloOutline id _ (transition order.id .PAYMENT_CHARGED .paymentCharged _ >>= fun _ =>
      ship id order rs) _
    refine Outline.bind hstep ?_
    rintro _ _ rfl
    exact ship_solo hid rs

theorem run_solo : SoloOutline id (fun _ _ => True) (SagaOrchestrator.run id) .CREATED := by
  unfold SagaOrchestrator.run
  refine ⟨trivial, fun r hr => ?_⟩
  obtain ⟨order, rfl, hid, -⟩ := hr rfl
  show SoloOutline id _ (reserveLines order.lines [] >>= fun _ => _) _
  refine Outline.bind (reserveLines_solo order.lines []) ?_
  rintro (⟨line, rs⟩ | rs) _ rfl
  · exact abort_solo hid rfl rs _ _ _
  · have hstep : SoloOutline id (fun _ status' => status' = .INVENTORY_RESERVED)
        (transition order.id .INVENTORY_RESERVED .inventoryReserved
          { reservations := some rs }) .CREATED :=
      hid ▸ transition_solo .inventoryReserved rfl _
    refine Outline.bind hstep ?_
    rintro _ _ rfl
    exact pay_solo hid rs

theorem next_compensating (h : isTerminalStatus status = false) :
    status.next .compensating = true := by
  cases status with
  | CONFIRMED => cases h
  | CANCELLED => cases h
  | FAILED => cases h
  | _ => rfl

/-- A recovery of a fresh record compensates and cancels, unless the record is terminal. -/
theorem recoverStuck_solo (hid : order.id = id) (hstatus : order.status = status) :
    SoloOutline id (fun _ _ => True) (recoverStuck order) status := by
  unfold recoverStuck
  refine ⟨hid, fun entry hentry => ?_⟩
  have hentry : entry.status = status := hentry.2 hstatus
  show SoloOutline id _ (if isTerminalStatus entry.status = true then _ else _) status
  cases hterm : isTerminalStatus entry.status with
  | true =>
    rw [if_pos rfl]
    trivial
  | false =>
    rw [if_neg (by decide)]
    refine Outline.bind (compensate_solo hid (next_compensating (hentry ▸ hterm)) _ _) ?_
    rintro _ _ rfl
    refine ⟨hid, fun later _ => ?_⟩
    show SoloOutline id _ (fail order.id _ _ >>= fun _ => mustGet order.id) _
    rw [hid]
    exact Outline.bind (fail_solo _ _) fun _ _ _ => mustGet_solo

theorem recover_solo :
    SoloOutline id (fun _ _ => True) (Job.saga (.recover id)) status := by
  refine ⟨trivial, fun r hr => ?_⟩
  obtain ⟨order, rfl, hid, hstatus⟩ := hr rfl
  show SoloOutline id _ (recoverStuck order >>= fun _ => Prog.ret ()) status
  exact Outline.bind (recoverStuck_solo hid hstatus) fun _ _ _ => trivial

end Outlines

/-! ## The stored trail -/

/-- The stored history is a trail, and the stored status is that of its last entry and the one that the
execution knows. -/
def TrailInv (id : OrderId) (w : World) (status : OrderStatus) : Prop :=
  ∃ order, w.store.get id = some order ∧ AuditTrail order.types ∧
    order.status = lastStatus order.types ∧ order.status = status

section Store

variable {id : OrderId} {w w' : World} {status : OrderStatus}

theorem TrailInv.store (h : TrailInv id w status) (hget : w'.store.get id = w.store.get id) :
    TrailInv id w' status := by
  obtain ⟨order, hstored, htrail⟩ := h
  exact ⟨order, hget.trans hstored, htrail⟩

/-- A step that the status allows is appended to the trail. -/
theorem TrailInv.write (h : TrailInv id w status) {type : EventType} (hnext : status.next type = true)
    {e : OrderEvent} (he : e.type = type) {store' : OrderStore}
    (hst : w.store.updateStatus id type.status e = some store') :
    TrailInv id { w with store := store' } type.status := by
  obtain ⟨order, hget, htrail, hlast, rfl⟩ := h
  obtain ⟨store₁, hst₁, -, hget'⟩ := OrderStore.updateStatus_of_get hget type.status e
  obtain rfl : store₁ = store' := Option.some.inj (hst₁.symm.trans hst)
  have htypes : (order.history ++ [e]).map OrderEvent.type = order.types ++ [type] := by
    rw [List.map_append, List.map_singleton, he]
    rfl
  refine ⟨{ order with status := type.status, history := order.history ++ [e] }, ?_, ?_, ?_, rfl⟩
  · rw [hget', if_pos rfl]
  · rw [Order.types, htypes]
    exact htrail.step (hlast ▸ hnext)
  · rw [Order.types, htypes, lastStatus_append]

theorem TrailInv.ok (h : TrailInv id w status) {c : Call} (hp : (soloContract id).pre status c)
    {r : c.Reply} (hcall : participate c w = (w', .ok r)) :
    (soloContract id).ans status c r ∧ TrailInv id w' ((solo id).note status c r) := by
  by_cases hupdate : ∃ x s type detail, c = .updateStatus x s type detail
  · obtain ⟨x, s, type, detail, rfl⟩ := hupdate
    obtain ⟨rfl, hnext, rfl⟩ := hp
    refine ⟨trivial, ?_⟩
    cases hst : w.store.updateStatus x type.status ⟨type, w.clock, detail⟩ with
    | none =>
      simp only [participate, hst] at hcall
      cases (Prod.mk.inj hcall).2
    | some store' =>
      simp only [participate, hst] at hcall
      obtain ⟨rfl, -⟩ := Prod.mk.inj hcall
      exact h.write hnext rfl hst
  · have hstore : w'.store = w.store := by
      have hsame := participate_store (w := w) (c := c) (by rintro a b x y rfl; exact hp)
        fun x s type detail heq => hupdate ⟨x, s, type, detail, heq⟩
      rwa [hcall] at hsame
    have hkept : TrailInv id w' status := h.store (by rw [hstore])
    obtain ⟨order, hget, -, -, hstatus⟩ := h
    cases c with
    | updateStatus x s type detail => exact absurd ⟨x, s, type, detail, rfl⟩ hupdate
    | get x =>
      refine ⟨?_, hkept⟩
      rintro rfl
      obtain rfl := Except.ok.inj (Prod.mk.inj hcall).2
      exact ⟨order, hget, OrderStore.id_of_get hget, hstatus⟩
    | fields read =>
      obtain rfl := Except.ok.inj (Prod.mk.inj hcall).2
      have hid : read.id = id := hp
      refine ⟨?_, hkept⟩
      rcases w.store.fields_cases read with hf | hf
      · rw [hf]
        exact ⟨hid, fun heq => heq⟩
      · rw [hid, hget] at hf
        rw [← Option.some.inj hf]
        exact ⟨OrderStore.id_of_get hget, fun _ => hstatus⟩
    | _ => exact ⟨trivial, hkept⟩

theorem solo_sound (id : OrderId) : Sound (solo id) (fun _ : Unit => soloContract id)
    (fun w gs => TrailInv id w (gs ())) where
  ok {w gs i c w' r} h hp hg hc := by
    obtain ⟨hans, hinv⟩ := h.ok hp hc
    exact ⟨hans, by rwa [Function.update_self]⟩
  error {w gs i c w' e} h hp hg hc := by
    have hstore : w'.store = w.store :=
      participate_store_of_error (by rintro a b x y rfl; exact hp) hc
    exact ⟨trivial, h.store (by rw [hstore])⟩
  env {w w' gs} h he := h.store he

/-- In every state that a run and recoveries pass through one after the other, the stored history is a
trail. -/
theorem Sequential.trail {w₀ : World} {order : Order} (hget : w₀.store.get id = some order)
    (hcreated : order.status = .CREATED) (hhistory : order.history = [])
    (h : Sequential id w₀ w) : ∃ status, TrailInv id w status := by
  have htypes : order.types = [] := by rw [Order.types, hhistory, List.map_nil]
  induction h with
  | run hr =>
    have hstart : TrailInv id w₀ .CREATED :=
      ⟨order, hget, htypes ▸ AuditTrail.nil, by rw [htypes, hcreated]; rfl, hcreated⟩
    exact ⟨_, ((solo_sound id).reaches (Q := fun _ _ _ => True) hr hstart fun _ =>
      Outline.bind run_solo fun _ _ _ => trivial).1⟩
  | recover status _ hstatus hr ih =>
    obtain ⟨known, stored, hstored, htrail, hlast, -⟩ := ih
    rw [hstored] at hstatus
    have hstart : TrailInv id _ status :=
      ⟨stored, hstored, htrail, hlast, Option.some.inj hstatus⟩
    exact ⟨_, ((solo_sound id).reaches (Q := fun _ _ _ => True) hr hstart fun _ => recover_solo).1⟩

/-- The audit trail of an order, at every moment of a run that may be cut off and of recoveries that
follow it, each on a fresh read and each possibly cut off. -/
theorem sequential_auditTrail {w₀ : World} {order : Order} (hget : w₀.store.get id = some order)
    (hcreated : order.status = .CREATED) (hhistory : order.history = []) (h : Sequential id w₀ w) :
    ∃ stored, w.store.get id = some stored ∧ AuditTrail stored.types ∧
      stored.status = lastStatus stored.types ∧
      stored.types.count .confirmed + stored.types.count .cancelled ≤ 1 ∧
      ∀ e ∈ stored.types.dropLast, e.ends = false := by
  obtain ⟨status, stored, hstored, htrail, hlast, -⟩ := h.trail hget hcreated hhistory
  obtain ⟨hcount, hends⟩ := htrail.ends
  exact ⟨stored, hstored, htrail, hlast, hcount, hends⟩

end Store

/-- A run that is cut off after the charge. -/
def cutOff : World :=
  ((solo "order").schedule (soloStart soloWorld .CREATED (.run "order"))
    (List.replicate 5 ())).state

/-- A recovery that follows it. -/
def recovered : World :=
  ((solo "order").schedule (soloStart cutOff .INVENTORY_RESERVED (.recover "order"))
    (List.replicate 8 ())).state

theorem recovered_auditTrail : ∃ stored, recovered.store.get "order" = some stored ∧
    AuditTrail stored.types ∧ stored.status = lastStatus stored.types ∧
    stored.types.count .confirmed + stored.types.count .cancelled ≤ 1 ∧
    ∀ e ∈ stored.types.dropLast, e.ends = false := by
  have hrun : Sequential "order" soloWorld cutOff :=
    .run (reaches_schedule (fun _ _ _ _ => trivial) _ _)
  have hstatus : (cutOff.store.get "order").map Order.status = some .INVENTORY_RESERVED := by
    decide +kernel
  have hget : soloWorld.store.get "order" = some soloOrder := by decide +kernel
  exact sequential_auditTrail hget rfl rfl
    (.recover .INVENTORY_RESERVED hrun hstatus (reaches_schedule (fun _ _ _ _ => trivial) _ _))

end SupplyChain
