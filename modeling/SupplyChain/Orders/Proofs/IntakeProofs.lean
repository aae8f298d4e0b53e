import SupplyChain.Events.Proofs.FailingHandlersProofs
import SupplyChain.Orders.Intake
import SupplyChain.Orders.Outcomes
import SupplyChain.Orders.Proofs.OrderStoreProofs

/-!
# Proofs: what a rejected `createOrder` leaves behind

A call that was rejected by the store's write, without effect, has created nothing. Any other rejected call
has stored its order, and one that was rejected by its publication has announced it as well.
-/

namespace SupplyChain

open Async SagaOrchestrator

namespace ObservedBus

variable {E H : Type} {o o' : ObservedBus E H}

/-- Nobody is handed an event that is not in the log of its topic. -/
theorem logged_attempt (h : PassInv o) (hl : ∀ c ∈ o.calls, c.event ∈ o.bus.topics (splitKey c.key).1)
    {a : FallibleAction E H} (hs : o.attempt a = some o') :
    ∀ c ∈ o'.calls, c.event ∈ o'.bus.topics (splitKey c.key).1 := by
  cases a with
  | throws key =>
    obtain ⟨-, rfl⟩ := attempt_throws hs
    exact hl
  | act a =>
    cases a with
    | publish topic event =>
      obtain ⟨-, rfl⟩ := step_publish hs
      intro c hc
      rw [ObservedBus.publish, InMemoryEventBus.topics_publish]
      split
      · rename_i ht
        exact List.mem_append_left _ (ht ▸ hl c hc)
      · exact hl c hc
    | subscribe topic groupId handler =>
      obtain ⟨-, rfl⟩ := step_subscribe hs
      exact hl
    | go =>
      obtain ⟨p, hp, rfl⟩ := Option.map_eq_some_iff.mp hs
      intro c hc
      unfold ObservedBus.drain at hc ⊢
      generalize hout : o.bus.drain p = out at hc ⊢
      have hstep : o.bus.DrainStep p out := hout ▸ o.bus.drain_step p
      cases hstep with
      | call d handler hd hh =>
        rcases List.mem_append.mp hc with hc | hc
        · exact hl c hc
        · obtain ⟨-, htopic, hevent⟩ := h.bus.delivery hp hd
          obtain rfl := List.mem_singleton.mp hc
          show d.event ∈ o.bus.topics (splitKey d.key).1
          rw [htopic]
          exact List.mem_of_getElem? hevent
      | _ =>
        simp only [Option.toList_none, List.append_nil] at hc
        exact hl c hc

/-- Only a publication changes a log. -/
theorem mem_topics_attempt (h : PassInv o) {a : FallibleAction E H} (hs : o.attempt a = some o')
    {topic : String} {e : E} : e ∈ o'.bus.topics topic ↔
      e ∈ o.bus.topics topic ∨ a = .act (.publish topic e) := by
  cases a with
  | throws key =>
    obtain ⟨-, rfl⟩ := attempt_throws hs
    simp [InMemoryEventBus.abandon]
  | act a =>
    cases a with
    | publish t event =>
      obtain ⟨-, rfl⟩ := step_publish hs
      rw [ObservedBus.publish, InMemoryEventBus.topics_publish]
      by_cases ht : topic = t
      · subst ht
        simp [eq_comm]
      · simp [ht, Ne.symm ht]
    | subscribe t groupId handler =>
      obtain ⟨-, rfl⟩ := step_subscribe hs
      simp [ObservedBus.subscribe, InMemoryEventBus.subscribe]
    | go =>
      obtain ⟨p, hp, rfl⟩ := Option.map_eq_some_iff.mp hs
      obtain ⟨htopics, -⟩ := InMemoryEventBus.drain_frame h.bus hp
      have hsame : (o.drain p).bus.topics = o.bus.topics := htopics
      simp [hsame]

end ObservedBus

namespace Intake

variable {ι H : Type} [DecidableEq ι]

/-- Where a call is, and whether its order is stored and announced. -/
inductive Placed (r : OrderRequest) (stored announced : OrderId → Prop) : Option OrderId → Creation → Prop where
  | requested :
    Placed r stored announced none
      (.running (createOrder r.customerId r.lines r.amountCents r.businessId))
  | stored {id : OrderId} (hs : stored id) (ha : ¬ announced id) :
    Placed r stored announced (some id)
      (.running (.call (.publish id .created r.created.2) fun _ => .ret id))
  | announced {id : OrderId} (hs : stored id) (ha : announced id) {c : Creation}
      (hc : c = .running (.ret id) ∨ c = .draining (.ret id) ∨ c = .rejected .handler) :
    Placed r stored announced (some id) c
  | lost {id : OrderId} (hs : stored id) (ha : ¬ announced id) :
    Placed r stored announced (some id) (.rejected (.store true))
  | failed {id : OrderId} (hs : ¬ stored id) (ha : ¬ announced id) :
    Placed r stored announced (some id) (.rejected (.store false))

/-- The order is in the store. -/
def Stored (s : Intake ι H) (id : OrderId) : Prop := (s.world.store.get id).isSome = true

/-- Every call is where it should be, each with an order of its own. -/
structure Inv (requests : ι → OrderRequest) (s : Intake ι H) : Prop where
  bus : ObservedBus.PassInv s.bus
  logged : ∀ c ∈ s.bus.calls, c.event ∈ s.bus.bus.topics (splitKey c.key).1
  drawn : ∀ {i id}, s.order i = some id → ¬ Unused s.world.uuids s.world.drawn id
  apart : ∀ {i j id}, s.order i = some id → s.order j = some id → i = j
  fresh : ∀ {id}, Unused s.world.uuids s.world.drawn id → ¬ s.Stored id ∧ ¬ s.Announced id
  placed : ∀ i, Placed (requests i) s.Stored s.Announced (s.order i) (s.creation i)

variable {requests : ι → OrderRequest} {s s' : Intake ι H} {i : ι}

/-! ## Where a call is -/

section Placed

variable {r : OrderRequest} {stored stored' announced announced' : OrderId → Prop}
  {order : Option OrderId} {c : Creation}

theorem Placed.congr (h : Placed r stored announced order c)
    (hs : ∀ id, order = some id → (stored' id ↔ stored id))
    (ha : ∀ id, order = some id → (announced' id ↔ announced id)) :
    Placed r stored' announced' order c := by
  cases h with
  | requested => exact .requested
  | stored hst hno => exact .stored ((hs _ rfl).mpr hst) fun han => hno ((ha _ rfl).mp han)
  | announced hst han hc => exact .announced ((hs _ rfl).mpr hst) ((ha _ rfl).mpr han) hc
  | lost hst hno => exact .lost ((hs _ rfl).mpr hst) fun han => hno ((ha _ rfl).mp han)
  | failed hno hna => exact .failed (fun hst => hno ((hs _ rfl).mp hst)) fun han => hna ((ha _ rfl).mp han)

/-- The end of a pass settles the publications that wait for it. -/
theorem Placed.settled (h : Placed r stored announced order c) (a : FallibleAction DomainEvent H) :
    Placed r stored announced order (Creation.settled a c) := by
  cases h with
  | announced hst han hc =>
    rcases hc with rfl | rfl | rfl
    · exact .announced hst han (Or.inl rfl)
    · cases a with
      | act a => exact .announced hst han (Or.inl rfl)
      | throws key => exact .announced hst han (Or.inr (Or.inr rfl))
    · exact .announced hst han (Or.inr (Or.inr rfl))
  | requested => exact .requested
  | stored hst hno => exact .stored hst hno
  | lost hst hno => exact .lost hst hno
  | failed hno hna => exact .failed hno hna

end Placed

/-! ## What the steps do -/

theorem create_cases {error : Option Bool}
    (hp : Placed (requests i) s.Stored s.Announced (s.order i) (s.creation i))
    (hs : s.create i error = some s') :
    let id := s.world.uuids.draw s.world.drawn
    s'.bus = s.bus ∧ s'.world.uuids = s.world.uuids ∧ s'.world.drawn = s.world.drawn + 1 ∧
      s'.order = Function.update s.order i (some id) ∧
      (∀ x, s'.Stored x ↔ s.Stored x ∨ (x = id ∧ error ≠ some false)) ∧
      ∃ c, s'.creation = Function.update s.creation i c ∧
        ∀ stored announced : OrderId → Prop, (stored id ↔ error ≠ some false) → ¬ announced id →
          Placed (requests i) stored announced (some id) c := by
  intro id
  generalize ho : s.order i = order at hp
  generalize hc : s.creation i = c at hp
  unfold create at hs
  rw [hc] at hs
  cases hp with
  | requested =>
    obtain rfl := Option.some.inj hs
    have hput : ∀ (w : World) (o : Order) x, ((w.store.create o).get x).isSome = true ↔
        (w.store.get x).isSome = true ∨ x = o.id := by
      intro w o x
      rw [OrderStore.create, OrderStore.get_put]
      by_cases hx : x = o.id
      · simp [hx]
      · simp [hx]
    rcases error with _ | _ | _
    · refine ⟨rfl, rfl, rfl, rfl, fun x => ?_, _, rfl, fun stored announced hst han => ?_⟩
      · exact (hput _ _ x).trans (by simp [Stored, id])
      · exact .stored (hst.mpr (by simp)) han
    · refine ⟨rfl, rfl, rfl, rfl, fun x => ?_, _, rfl, fun stored announced hst han => ?_⟩
      · simp [Stored]
      · exact .failed (fun hyes => hst.mp hyes rfl) han
    · refine ⟨rfl, rfl, rfl, rfl, fun x => ?_, _, rfl, fun stored announced hst han => ?_⟩
      · exact (hput _ _ x).trans (by simp [Stored, id])
      · exact .lost (hst.mpr (by simp)) han
  | announced _ _ hc => rcases hc with rfl | rfl | rfl <;> cases hs
  | _ => cases hs

theorem publish_cases (hp : Placed (requests i) s.Stored s.Announced (s.order i) (s.creation i))
    (hs : s.publish i = some s') :
    ∃ id event, s.order i = some id ∧ s.Stored id ∧ event.type = .created ∧ event.orderId = id ∧
      s.bus.bus.idle = true ∧ s'.world = s.world ∧ s'.order = s.order ∧
      s'.bus = s.bus.publish ORDERS_TOPIC event ∧
      ∃ c, s'.creation = Function.update s.creation i c ∧
        (c = .running (.ret id) ∨ c = .draining (.ret id)) := by
  generalize ho : s.order i = order at hp
  generalize hc : s.creation i = c at hp
  unfold publish at hs
  rw [hc] at hs
  cases hp with
  | @stored id hst _ =>
    simp only [Option.ite_none_right_eq_some] at hs
    obtain ⟨hidle, hs⟩ := hs
    cases hd : s.bus.bus.draining with
    | none =>
      rw [hd] at hs
      obtain rfl := Option.some.inj hs
      exact ⟨id, _, rfl, hst, rfl, rfl, hidle, rfl, rfl, rfl, _, rfl, Or.inr rfl⟩
    | some p =>
      rw [hd] at hs
      obtain rfl := Option.some.inj hs
      exact ⟨id, _, rfl, hst, rfl, rfl, hidle, rfl, rfl, rfl, _, rfl, Or.inl rfl⟩
  | announced _ _ hc => rcases hc with rfl | rfl | rfl <;> cases hs
  | _ => cases hs

theorem act_cases {a : FallibleAction DomainEvent H} (hs : s.act a = some s') :
    a.createsOrder = false ∧ s.bus.attempt a = some s'.bus ∧ s'.world = s.world ∧ s'.order = s.order ∧
      ∀ j, s'.creation j = s.creation j ∨ s'.creation j = Creation.settled a (s.creation j) := by
  unfold act at hs
  simp only [Option.ite_none_left_eq_some, Bool.not_eq_true] at hs
  obtain ⟨hother, hs⟩ := hs
  obtain ⟨bus, hbus, rfl⟩ := Option.map_eq_some_iff.mp hs
  split
  · refine ⟨hother, hbus, rfl, rfl, fun j => ?_⟩
    rename_i i _ _
    by_cases hj : j = i
    · subst hj
      exact Or.inr (Function.update_self ..)
    · exact Or.inl (Function.update_of_ne hj ..)
  · exact ⟨hother, hbus, rfl, rfl, fun j => Or.inl rfl⟩

/-! ## The invariant -/

/-- One call has moved on; the orders of the others are as stored and as announced as before. -/
theorem Inv.placed_of_update (h : Inv requests s) {order : Option OrderId} {c : Creation}
    (horder : s'.order = Function.update s.order i order)
    (hcreation : s'.creation = Function.update s.creation i c)
    (hself : Placed (requests i) s'.Stored s'.Announced order c)
    (hstored : ∀ j id, j ≠ i → s.order j = some id → (s'.Stored id ↔ s.Stored id))
    (hannounced : ∀ j id, j ≠ i → s.order j = some id → (s'.Announced id ↔ s.Announced id)) (j : ι) :
    Placed (requests j) s'.Stored s'.Announced (s'.order j) (s'.creation j) := by
  rw [horder, hcreation]
  by_cases hj : j = i
  · subst hj
    rwa [Function.update_self, Function.update_self]
  · rw [Function.update_of_ne hj, Function.update_of_ne hj]
    exact (h.placed j).congr (fun id hid => hstored j id hj hid) fun id hid => hannounced j id hj hid

theorem Inv.create (h : Inv requests s) {error : Option Bool} (hs : s.create i error = some s') :
    Inv requests s' := by
  obtain ⟨hbus, huuids, hdrawn, horder, hstored, c, hcreation, hc⟩ := create_cases (h.placed i) hs
  generalize hid : s.world.uuids.draw s.world.drawn = id at horder hstored hc
  have hunused : Unused s.world.uuids s.world.drawn id := ⟨_, Nat.le_refl _, hid.symm⟩
  obtain ⟨hnew, hquiet⟩ := h.fresh hunused
  have hnot : ∀ {j x}, s.order j = some x → x ≠ id := by
    rintro j x hj rfl
    exact h.drawn hj hunused
  have hannounced : ∀ x, s'.Announced x ↔ s.Announced x := by
    intro x
    unfold Announced
    rw [hbus]
  have hcases : ∀ {j x}, s'.order j = some x → (j = i ∧ x = id) ∨ (j ≠ i ∧ s.order j = some x) := by
    intro j x hj
    rw [horder] at hj
    by_cases hji : j = i
    · subst hji
      rw [Function.update_self] at hj
      exact Or.inl ⟨rfl, (Option.some.inj hj).symm⟩
    · rw [Function.update_of_ne hji] at hj
      exact Or.inr ⟨hji, hj⟩
  have hused : ∀ {x}, Unused s'.world.uuids s'.world.drawn x →
      Unused s.world.uuids s.world.drawn x ∧ x ≠ id := by
    rintro x ⟨n, hn, rfl⟩
    rw [hdrawn] at hn
    rw [huuids]
    refine ⟨⟨n, by omega, rfl⟩, fun heq => ?_⟩
    have hsame : n = s.world.drawn := s.world.uuids.injective (heq.trans hid.symm)
    omega
  refine
    { bus := hbus ▸ h.bus
      logged := hbus ▸ h.logged
      drawn := fun {j x} hj hun => ?drawn
      apart := fun {j k x} hj hk => ?apart
      fresh := fun {x} hun => ?fresh
      placed := h.placed_of_update horder hcreation (hc _ _ ?_ ?_) ?_ fun _ _ _ _ => hannounced _ }
  case drawn =>
    obtain ⟨hun', hne⟩ := hused hun
    rcases hcases hj with ⟨-, rfl⟩ | ⟨-, hj⟩
    · exact hne rfl
    · exact h.drawn hj hun'
  case apart =>
    rcases hcases hj with ⟨rfl, rfl⟩ | ⟨-, hj⟩ <;> rcases hcases hk with ⟨rfl, hx⟩ | ⟨-, hk⟩
    · rfl
    · exact absurd rfl (hnot hk)
    · exact absurd hx (hnot hj)
    · exact h.apart hj hk
  case fresh =>
    obtain ⟨hun', hne⟩ := hused hun
    obtain ⟨hno, hna⟩ := h.fresh hun'
    rw [hstored, hannounced]
    exact ⟨fun hor => hor.elim hno fun hx => hne hx.1, hna⟩
  · rw [hstored]
    simp [hnew]
  · rwa [hannounced]
  · intro j x _ hj
    rw [hstored]
    simp [hnot hj]

theorem Inv.publish (h : Inv requests s) (hs : s.publish i = some s') : Inv requests s' := by
  obtain ⟨id, event, hid, hst, htype, hevent, hidle, hworld, horder, hbus, c, hcreation, hc⟩ :=
    publish_cases (h.placed i) hs
  have hattempt : s.bus.attempt (.act (.publish ORDERS_TOPIC event)) = some s'.bus := by
    rw [hbus]
    exact if_pos hidle
  have hstored : ∀ x, s'.Stored x ↔ s.Stored x := by
    intro x
    unfold Stored
    rw [hworld]
  have hannounced : ∀ x, s'.Announced x ↔ s.Announced x ∨ x = id := by
    intro x
    unfold Announced
    constructor
    · rintro ⟨topic, e, he, hcreated, hx⟩
      rcases (ObservedBus.mem_topics_attempt h.bus hattempt).mp he with he | he
      · exact Or.inl ⟨topic, e, he, hcreated, hx⟩
      · obtain ⟨-, rfl⟩ : _ ∧ event = e := by simpa using he
        exact Or.inr (hx.symm.trans hevent)
    · rintro (⟨topic, e, he, hcreated, hx⟩ | rfl)
      · exact ⟨topic, e, (ObservedBus.mem_topics_attempt h.bus hattempt).mpr (Or.inl he), hcreated, hx⟩
      · exact ⟨ORDERS_TOPIC, event, (ObservedBus.mem_topics_attempt h.bus hattempt).mpr (Or.inr rfl),
          htype, hevent⟩
  have horders : s'.order = Function.update s.order i (some id) := by
    rw [horder, ← hid, Function.update_eq_self]
  refine
    { bus := h.bus.attempt hattempt
      logged := ObservedBus.logged_attempt h.bus h.logged hattempt
      drawn := fun hj => ?drawn
      apart := fun hj hk => h.apart (horder ▸ hj) (horder ▸ hk)
      fresh := fun {x} hun => ?fresh
      placed := h.placed_of_update horders hcreation (.announced ?_ ?_ ?_)
        (fun _ _ _ _ => hstored _) ?_ }
  case drawn =>
    rw [hworld]
    exact h.drawn (horder ▸ hj)
  case fresh =>
    rw [hworld] at hun
    rw [hstored, hannounced]
    obtain ⟨hno, hna⟩ := h.fresh hun
    refine ⟨hno, fun hor => hor.elim hna ?_⟩
    rintro rfl
    exact h.drawn hid hun
  · exact (hstored id).mpr hst
  · exact (hannounced id).mpr (Or.inr rfl)
  · exact hc.imp_right Or.inl
  · intro j x hj hx
    rw [hannounced]
    have hne : x ≠ id := by
      rintro rfl
      exact hj (h.apart hx hid)
    simp [hne]

theorem Inv.updateStatus (h : Inv requests s) {id : OrderId} {status : OrderStatus} {event : OrderEvent}
    (hs : s.step (.updateStatus id status event) = some s') : Inv requests s' := by
  obtain ⟨store, hstore, rfl⟩ := Option.map_eq_some_iff.mp hs
  obtain ⟨o, hget, -⟩ := Option.map_eq_some_iff.mp hstore
  obtain ⟨store', hstore', -, hget'⟩ := OrderStore.updateStatus_of_get hget status event
  obtain rfl := Option.some.inj (hstore.symm.trans hstore')
  have hstored : ∀ x, Stored { s with world := { s.world with store } } x ↔ s.Stored x := by
    intro x
    unfold Stored
    rw [hget']
    by_cases hx : x = id
    · subst hx
      simp [hget]
    · simp [hx]
  refine
    { bus := h.bus
      logged := h.logged
      drawn := h.drawn
      apart := h.apart
      fresh := fun {x} hun => ⟨fun hst => (h.fresh hun).1 ((hstored x).mp hst), (h.fresh hun).2⟩
      placed := fun j => (h.placed j).congr (fun x _ => hstored x) fun x _ => Iff.rfl }

theorem Inv.act (h : Inv requests s) {a : FallibleAction DomainEvent H} (hs : s.act a = some s') :
    Inv requests s' := by
  obtain ⟨hother, hattempt, hworld, horder, hcreation⟩ := act_cases hs
  have hstored : ∀ x, s'.Stored x ↔ s.Stored x := by
    intro x
    unfold Stored
    rw [hworld]
  have hannounced : ∀ x, s'.Announced x ↔ s.Announced x := by
    intro x
    unfold Announced
    constructor
    · rintro ⟨topic, e, he, hcreated, hx⟩
      rcases (ObservedBus.mem_topics_attempt h.bus hattempt).mp he with he | rfl
      · exact ⟨topic, e, he, hcreated, hx⟩
      · simp [FallibleAction.createsOrder, hcreated] at hother
    · rintro ⟨topic, e, he, hcreated, hx⟩
      exact ⟨topic, e, (ObservedBus.mem_topics_attempt h.bus hattempt).mpr (Or.inl he), hcreated, hx⟩
  have hsame : ∀ j, Placed (requests j) s'.Stored s'.Announced (s.order j) (s.creation j) := fun j =>
    (h.placed j).congr (fun x _ => hstored x) fun x _ => hannounced x
  refine
    { bus := h.bus.attempt hattempt
      logged := ObservedBus.logged_attempt h.bus h.logged hattempt
      drawn := fun hj => ?drawn
      apart := fun hj hk => h.apart (horder ▸ hj) (horder ▸ hk)
      fresh := fun {x} hun => ?fresh
      placed := fun j => ?placed }
  case drawn =>
    rw [hworld]
    exact h.drawn (horder ▸ hj)
  case fresh =>
    rw [hworld] at hun
    rw [hstored, hannounced]
    exact h.fresh hun
  case placed =>
    rw [horder]
    rcases hcreation j with hj | hj
    · rw [hj]
      exact hsame j
    · rw [hj]
      exact (hsame j).settled a

theorem Inv.step (h : Inv requests s) {a : IntakeAction ι H} (hs : s.step a = some s') :
    Inv requests s' := by
  cases a with
  | create i error => exact h.create hs
  | publish i => exact h.publish hs
  | updateStatus id status event => exact h.updateStatus hs
  | elapse ms =>
    obtain rfl := Option.some.inj hs
    exact ⟨h.bus, h.logged, h.drawn, h.apart, h.fresh, h.placed⟩
  | act a => exact h.act hs

omit [DecidableEq ι] in
theorem inv_opened {w : World}
    (hfresh : ∀ id, Unused w.uuids w.drawn id → w.store.get id = none) :
    Inv requests (opened w requests : Intake ι H) where
  bus := ObservedBus.inv_empty.pass
  logged c hc := by cases hc
  drawn hj := by cases hj
  apart hj := by cases hj
  fresh {id} hun := by
    refine ⟨?_, ?_⟩
    · rw [Stored, opened, hfresh id hun]
      simp
    · rintro ⟨topic, e, he, -⟩
      cases he
  placed i := .requested

/-! ## Runs -/

theorem run_cons {a : IntakeAction ι H} {actions : List (IntakeAction ι H)} :
    s.run (a :: actions) = some s' ↔ ∃ s₁, s.step a = some s₁ ∧ s₁.run actions = some s' := by
  rw [Intake.run, List.foldlM_cons]
  exact Option.bind_eq_some_iff

theorem Inv.run (h : Inv requests s) {actions : List (IntakeAction ι H)}
    (hr : s.run actions = some s') : Inv requests s' := by
  induction actions generalizing s with
  | nil =>
    obtain rfl := Option.some.inj hr
    exact h
  | cons a actions ih =>
    obtain ⟨s₁, hs, hr⟩ := run_cons.mp hr
    exact ih (h.step hs) hr

/-- A call that has rejected is over. -/
theorem Inv.rejected_step (h : Inv requests s) {id : OrderId} {e : CreateError} (hid : s.order i = some id)
    (hrej : s.creation i = .rejected e) {a : IntakeAction ι H} (hs : s.step a = some s') :
    s'.order i = some id ∧ s'.creation i = .rejected e := by
  cases a with
  | create j error =>
    have hs : s.create j error = some s' := hs
    have hne : i ≠ j := by
      rintro rfl
      simp [Intake.create, hrej] at hs
    obtain ⟨-, -, -, horder, -, c, hcreation, -⟩ := create_cases (h.placed j) hs
    rw [horder, hcreation, Function.update_of_ne hne, Function.update_of_ne hne]
    exact ⟨hid, hrej⟩
  | publish j =>
    have hs : s.publish j = some s' := hs
    have hne : i ≠ j := by
      rintro rfl
      simp [Intake.publish, hrej] at hs
    obtain ⟨_, _, -, -, -, -, -, -, horder, -, c, hcreation, -⟩ := publish_cases (h.placed j) hs
    rw [horder, hcreation, Function.update_of_ne hne]
    exact ⟨hid, hrej⟩
  | updateStatus x status event =>
    obtain ⟨store, -, rfl⟩ := Option.map_eq_some_iff.mp hs
    exact ⟨hid, hrej⟩
  | elapse ms =>
    obtain rfl := Option.some.inj hs
    exact ⟨hid, hrej⟩
  | act a =>
    obtain ⟨-, -, -, horder, hcreation⟩ := act_cases hs
    refine ⟨horder ▸ hid, ?_⟩
    rcases hcreation i with hc | hc
    · exact hc.trans hrej
    · rw [hc, hrej]
      rfl

theorem Inv.rejected_run (h : Inv requests s) {id : OrderId} {e : CreateError} (hid : s.order i = some id)
    (hrej : s.creation i = .rejected e) {actions : List (IntakeAction ι H)}
    (hr : s.run actions = some s') :
    Inv requests s' ∧ s'.order i = some id ∧ s'.creation i = .rejected e := by
  induction actions generalizing s with
  | nil =>
    obtain rfl := Option.some.inj hr
    exact ⟨h, hid, hrej⟩
  | cons a actions ih =>
    obtain ⟨s₁, hs, hr⟩ := run_cons.mp hr
    obtain ⟨hid', hrej'⟩ := h.rejected_step hid hrej hs
    exact ih (h.step hs) hid' hrej' hr

omit [DecidableEq ι] in
/-- The saga runner starts only what has been announced. -/
theorem Inv.announced_of_started (h : Inv requests s) {id : OrderId} (hst : s.SagaStarted id) :
    s.Announced id := by
  obtain ⟨c, hc, -, hrun, hid⟩ := hst
  refine ⟨_, c.event, h.logged c hc, ?_, hid⟩
  by_contra hne
  simp [sagaRunner, hne] at hrun

omit [DecidableEq ι] in
/-- What a rejected call has left behind. -/
theorem Inv.rejected_cases (h : Inv requests s) {e : CreateError} (hrej : s.creation i = .rejected e) :
    ∃ id, s.order i = some id ∧ match e with
      | .store false => ¬ s.Stored id ∧ ¬ s.Announced id
      | .store true => s.Stored id ∧ ¬ s.Announced id
      | .handler => s.Stored id ∧ s.Announced id := by
  have hp := h.placed i
  generalize ho : s.order i = order at hp
  rw [hrej] at hp
  cases hp with
  | announced hst han hc =>
    rcases hc with hc | hc | hc
    · cases hc
    · cases hc
    · cases hc
      exact ⟨_, rfl, hst, han⟩
  | lost hst hna => exact ⟨_, rfl, hst, hna⟩
  | failed hno hna => exact ⟨_, rfl, hno, hna⟩

/-- After a rejection the order is not in the store and its saga is never started, exactly if it is the
store's write that has rejected, without having taken effect. -/
theorem create_atomic_iff {w : World} (hfresh : ∀ id, Unused w.uuids w.drawn id → w.store.get id = none)
    {actions : List (IntakeAction ι H)} (hr : (opened w requests).run actions = some s) {e : CreateError}
    (hrej : s.creation i = .rejected e) :
    ∃ id, s.order i = some id ∧
      ((∀ more s', s.run more = some s' → s'.world.store.get id = none ∧ ¬ s'.SagaStarted id) ↔
        e = .store false) := by
  have hinv := (inv_opened hfresh).run hr
  obtain ⟨id, hid, hleft⟩ := hinv.rejected_cases hrej
  refine ⟨id, hid, fun hall => ?_, ?_⟩
  · obtain ⟨hnone, -⟩ := hall [] s rfl
    have hno : ¬ s.Stored id := by simp [Stored, hnone]
    rcases e with landed | _
    · cases landed with
      | false => rfl
      | true => exact absurd hleft.1 hno
    · exact absurd hleft.1 hno
  · rintro rfl more s' hmore
    obtain ⟨hinv', hid', hrej'⟩ := hinv.rejected_run hid hrej hmore
    obtain ⟨id', hsame, hno, hna⟩ := hinv'.rejected_cases hrej'
    obtain rfl := Option.some.inj (hid'.symm.trans hsame)
    exact ⟨by simpa [Stored] using hno, fun hst => hna (hinv'.announced_of_started hst)⟩

/-! ## One order, rejected by the store or by a handler -/

/-- One request, of two units. -/
def soleRequest (_ : Unit) : OrderRequest := ⟨"customer", [⟨"sku", 2, "warehouse"⟩], 100, none⟩

/-- The server before the request is handled. -/
def soleIntake : Intake Unit Nat :=
  opened (startWorld .inMemory [] 5 (fun _ => false) fun _ => false) soleRequest

theorem soleIntake_fresh (id : OrderId) (_ : Unused soleIntake.world.uuids soleIntake.world.drawn id) :
    soleIntake.world.store.get id = none := rfl

theorem failedWrite_creates_nothing : ∃ s, soleIntake.run [.create () (some false)] = some s ∧
    ∀ more s', s.run more = some s' → s'.world.store.get "x" = none ∧ ¬ s'.SagaStarted "x" := by
  obtain ⟨s, hr⟩ : ∃ s, soleIntake.run [.create () (some false)] = some s := ⟨_, rfl⟩
  have hs : soleIntake.create () (some false) = some s := hr
  have hrej : s.creation () = .rejected (.store false) := by
    obtain rfl := Option.some.inj hs
    rfl
  obtain ⟨id, hid, hiff⟩ := create_atomic_iff soleIntake_fresh hr hrej
  have hx : id = "x" := by
    obtain rfl := Option.some.inj hs
    exact (Option.some.inj hid).symm
  subst hx
  exact ⟨s, hr, hiff.mpr rfl⟩

/-- The saga runner has been called, and then the hub throws. -/
def hubFails : List (IntakeAction Unit Nat) :=
  [.act (.act (.subscribe ORDERS_TOPIC CONSUMER_GROUP 0)), .act (.act (.subscribe ORDERS_TOPIC "sse-hub" 1)),
    .create () none, .publish ()] ++ List.replicate 5 (.act (.act .go)) ++
    [.act (.throws (groupKey ORDERS_TOPIC "sse-hub"))]

/-- The publication has rejected, with the order stored and its saga started. -/
theorem hubFails_creates : ¬ ∀ (requests : Unit → OrderRequest) (w : World)
    (actions : List (IntakeAction Unit Nat)) (s : Intake Unit Nat) (id : OrderId) (e : CreateError),
    (∀ id, Unused w.uuids w.drawn id → w.store.get id = none) →
    (opened w requests).run actions = some s → s.creation () = .rejected e → s.order () = some id →
    s.world.store.get id = none ∧ ¬ s.SagaStarted id := by
  intro hall
  have hrun : (soleIntake.run hubFails).map (fun s => ((s.creation ()).error?, s.order (),
      (s.world.store.get "x").isSome)) = some (some .handler, some "x", true) := by
    decide +kernel
  obtain ⟨s, hr, hseen⟩ := Option.map_eq_some_iff.mp hrun
  simp only [Prod.mk.injEq] at hseen
  obtain ⟨herror, hid, hstored⟩ := hseen
  have hrej : s.creation () = .rejected .handler := by
    cases hc : s.creation () with
    | rejected e =>
      rw [hc] at herror
      rw [Option.some.inj herror]
    | running _ | draining _ =>
      rw [hc] at herror
      cases herror
  obtain ⟨hnone, -⟩ := hall soleRequest soleIntake.world hubFails s "x" .handler soleIntake_fresh hr hrej hid
  rw [hnone] at hstored
  cases hstored

end Intake

end SupplyChain
