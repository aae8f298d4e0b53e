import SupplyChain.Api.LiveFeed
import SupplyChain.Api.Proofs.SseHubProofs
import SupplyChain.Events.Proofs.DeliveryProofs

/-!
# Proofs: how far the hub has come

The hub is one handler of its group. Each call of it takes the next event of the log, so that a response is
written a stretch of the log, from where the hub was when the response was added.
-/

namespace SupplyChain

open Collections SagaOrchestrator
open InMemoryEventBus (Served DrainStep drain_step draining_publish)

namespace SseHub

variable {bus : InMemoryEventBus DomainEvent Listener} {opened : Bool}

theorem topic_key : (splitKey key).1 = ORDERS_TOPIC := topic_groupKey (by decide) "sse-hub"

theorem heard_of_none (h : bus.draining = none) : heard bus = false := by
  simp [heard, h]

theorem heard_of_round {p : Pass DomainEvent} (hp : bus.draining = some p) (hd : p.delivery = none) :
    heard bus = false := by
  obtain ⟨topic, pos, madeProgress, delivery⟩ := p
  obtain rfl : delivery = none := hd
  simp [heard, hp]

theorem heard_of_delivery {p : Pass DomainEvent} {d : Delivery DomainEvent} (hp : bus.draining = some p)
    (hd : p.delivery = some d) :
    heard bus = decide (d.key = key ∧ (bus.groupHandlers key).idxOf .sseHub < d.called) := by
  obtain ⟨topic, pos, madeProgress, delivery⟩ := p
  obtain rfl : delivery = some d := hd
  simp [heard, hp]

/-- The passes are over `orders`, and the hub is subscribed once if it is open. -/
structure HubInv (bus : InMemoryEventBus DomainEvent Listener) (opened : Bool) : Prop where
  inv : bus.Inv
  called_le : ∀ {p d}, bus.draining = some p → p.delivery = some d →
    d.called ≤ (bus.groupHandlers d.key).length
  topic : ∀ {p}, bus.draining = some p → p.topic = ORDERS_TOPIC
  once : ∀ {k n}, (bus.groupHandlers k)[n]? = some .sseHub →
    opened = true ∧ k = key ∧ n = (bus.groupHandlers key).idxOf .sseHub
  mem : opened = true → Listener.sseHub ∈ bus.groupHandlers key
  known : opened = true → (bus.groupCursors.get key).isSome = true

theorem hubInv_empty : HubInv .empty false where
  inv := InMemoryEventBus.inv_empty
  called_le h := by cases h
  topic h := by cases h
  once h := by cases h
  mem h := by cases h
  known h := by cases h

/-! ## Publications and subscriptions -/

theorem draining_publish_cases {event : DomainEvent} {p : Pass DomainEvent}
    (hp : (bus.publish ORDERS_TOPIC event).draining = some p) :
    p = ⟨ORDERS_TOPIC, 0, false, none⟩ ∨ bus.draining = some p := by
  rw [draining_publish] at hp
  obtain rfl := Option.some.inj hp
  cases hq : bus.draining with
  | none => exact .inl rfl
  | some q => exact .inr rfl

theorem HubInv.publish (h : HubInv bus opened) (hidle : bus.idle = true) (event : DomainEvent) :
    HubInv (bus.publish ORDERS_TOPIC event) opened where
  inv := h.inv.publish hidle event
  called_le {p d} hp hd := by
    rw [InMemoryEventBus.groupHandlers_publish]
    rcases draining_publish_cases hp with rfl | hq
    · cases hd
    · exact h.called_le hq hd
  topic {p} hp := by
    rcases draining_publish_cases hp with rfl | hq
    · rfl
    · exact h.topic hq
  once hn := by
    rw [InMemoryEventBus.groupHandlers_publish] at hn ⊢
    exact h.once hn
  mem ho := by
    rw [InMemoryEventBus.groupHandlers_publish]
    exact h.mem ho
  known ho := by
    rw [InMemoryEventBus.groupCursors_publish]
    exact h.known ho

theorem passed_publish (bus : InMemoryEventBus DomainEvent Listener) (event : DomainEvent) :
    passed (bus.publish ORDERS_TOPIC event) = passed bus := by
  have hheard : heard (bus.publish ORDERS_TOPIC event) = heard bus := by
    have hdraining := draining_publish bus ORDERS_TOPIC event
    cases hq : bus.draining with
    | none =>
      rw [hq] at hdraining
      rw [heard_of_none hq, heard_of_round hdraining rfl]
    | some q =>
      rw [hq] at hdraining
      unfold heard
      rw [hdraining, hq, InMemoryEventBus.groupHandlers_publish]
      rfl
  rw [passed, passed, InMemoryEventBus.groupCursors_publish, hheard]

theorem groupHandlers_subscribe (groupId : String) (handler : Listener) (k : String) :
    (bus.subscribe ORDERS_TOPIC groupId handler).groupHandlers k =
      bus.groupHandlers k ++ if k = groupKey ORDERS_TOPIC groupId then [handler] else [] := by
  unfold InMemoryEventBus.subscribe
  by_cases hk : k = groupKey ORDERS_TOPIC groupId
  · subst hk
    simp
  · simp [hk]

/-- The handlers of others come after the hub. -/
theorem HubInv.idxOf_subscribe (h : HubInv bus true) (groupId : String) :
    ((bus.subscribe ORDERS_TOPIC groupId .other).groupHandlers key).idxOf Listener.sseHub =
      (bus.groupHandlers key).idxOf .sseHub := by
  rw [groupHandlers_subscribe, List.idxOf_append_of_mem (h.mem rfl)]

theorem HubInv.subscribe (h : HubInv bus opened) (hidle : bus.idle = true) (groupId : String) :
    HubInv (bus.subscribe ORDERS_TOPIC groupId .other) opened where
  inv := h.inv.subscribe hidle .other
  called_le {p d} hp hd := by
    rw [groupHandlers_subscribe, List.length_append]
    exact Nat.le_add_right_of_le (h.called_le hp hd)
  topic := h.topic
  once {k n} hn := by
    rw [groupHandlers_subscribe, List.getElem?_append] at hn
    split at hn
    · obtain ⟨rfl, rfl, hidx⟩ := h.once hn
      exact ⟨rfl, rfl, by rw [h.idxOf_subscribe]; exact hidx⟩
    · have hmem := List.mem_of_getElem? hn
      split at hmem <;> simp at hmem
  mem ho := by
    rw [groupHandlers_subscribe]
    exact List.mem_append_left _ (h.mem ho)
  known ho := by
    rw [InMemoryEventBus.get_isSome_subscribe _ (h.known ho)]
    exact h.known ho

theorem HubInv.passed_subscribe (h : HubInv bus true) (groupId : String) :
    passed (bus.subscribe ORDERS_TOPIC groupId .other) = passed bus := by
  have hheard : heard (bus.subscribe ORDERS_TOPIC groupId .other) = heard bus := by
    unfold heard
    rw [h.idxOf_subscribe]
    rfl
  rw [passed, passed, hheard, InMemoryEventBus.get_isSome_subscribe _ (h.known rfl)]

theorem HubInv.openHub (h : HubInv bus false) (hidle : bus.idle = true) :
    HubInv (bus.subscribe ORDERS_TOPIC "sse-hub" .sseHub) true where
  inv := h.inv.subscribe hidle .sseHub
  called_le {p d} hp hd := by
    rw [groupHandlers_subscribe, List.length_append]
    exact Nat.le_add_right_of_le (h.called_le hp hd)
  topic := h.topic
  once {k n} hn := by
    have hnew : Listener.sseHub ∉ bus.groupHandlers key := by
      intro hmem
      obtain ⟨i, hi⟩ := List.getElem?_of_mem hmem
      cases (h.once hi).1
    rw [groupHandlers_subscribe, ← key, List.getElem?_append] at hn
    split at hn
    · cases (h.once hn).1
    · rename_i hle
      obtain ⟨hlt, -⟩ := List.getElem?_eq_some_iff.mp hn
      have hk : k = key := by
        by_contra hk
        rw [if_neg hk] at hlt
        simp at hlt
      subst hk
      refine ⟨rfl, rfl, ?_⟩
      rw [if_pos rfl, List.length_singleton] at hlt
      rw [groupHandlers_subscribe, ← key, if_pos rfl, List.idxOf_append_of_notMem hnew, List.idxOf_cons_self]
      omega
  mem _ := by
    rw [groupHandlers_subscribe, ← key, if_pos rfl]
    exact List.mem_append_right _ List.mem_cons_self
  known _ := by
    rw [InMemoryEventBus.get_subscribe, ← key, if_pos rfl]
    rfl

/-! ## The pass -/

theorem HubInv.drain (h : HubInv bus opened) {p : Pass DomainEvent} (hp : bus.draining = some p) :
    HubInv (bus.drain p).1 opened := by
  obtain ⟨-, htopic, -, hknown⟩ := InMemoryEventBus.drain_frame h.inv hp
  have hhandlers : (bus.drain p).1.groupHandlers = bus.groupHandlers := by
    generalize hout : bus.drain p = out
    have hstep : DrainStep bus p out := hout ▸ drain_step bus p
    cases hstep <;> rfl
  refine
    { inv := h.inv.drain hp
      called_le := ?called_le
      topic := fun {q} hq => (htopic q hq).trans (h.topic hp)
      once := fun {k n} hn => by rw [hhandlers] at hn ⊢; exact h.once hn
      mem := fun ho => by rw [hhandlers]; exact h.mem ho
      known := fun ho => hknown key (h.known ho) }
  intro q d hq hd
  rw [hhandlers]
  generalize hout : bus.drain p = out at hq
  have hstep : DrainStep bus p out := hout ▸ drain_step bus p
  cases hstep with
  | call d' handler hd' hh =>
    obtain rfl := Option.some.inj hq
    obtain rfl := Option.some.inj hd
    exact (List.getElem?_eq_some_iff.mp hh).1
  | handedOut =>
    obtain rfl := Option.some.inj hq
    cases hd
  | round hd' =>
    obtain rfl := Option.some.inj hq
    cases hd'.symm.trans hd
  | finish => cases hq
  | skip k cursor hd' =>
    obtain rfl := Option.some.inj hq
    cases hd'.symm.trans hd
  | take k cursor event hd' he ht hv =>
    obtain rfl := Option.some.inj hq
    obtain rfl := Option.some.inj hd
    exact Nat.zero_le _

/-- The hub goes past exactly the events that it is called with, and takes them as they stand in the log. -/
theorem HubInv.passed_drain (h : HubInv bus true) {p : Pass DomainEvent} (hp : bus.draining = some p) :
    passed (bus.drain p).1 =
        passed bus + ((bus.drain p).2.bind StreamServer.broadcasts).toList.length ∧
      ∀ e, (bus.drain p).2.bind StreamServer.broadcasts = some e →
        (bus.history ORDERS_TOPIC)[passed bus]? = some e := by
  generalize hout : bus.drain p = out
  have hstep : DrainStep bus p out := hout ▸ drain_step bus p
  cases hstep with
  | call d handler hd hh =>
    obtain ⟨hcursor, -, hevent⟩ := h.inv.delivery hp hd
    rw [h.topic hp] at hevent
    have hbefore := heard_of_delivery hp hd
    have hlater : heard { bus with
        draining := some { p with delivery := some { d with called := d.called + 1 } } } =
          decide (d.key = key ∧ (bus.groupHandlers key).idxOf .sseHub < d.called + 1) := rfl
    cases handler with
    | sseHub =>
      obtain ⟨-, hkey, hidx⟩ := h.once hh
      rw [decide_eq_false (by omega)] at hbefore
      rw [decide_eq_true ⟨hkey, by omega⟩] at hlater
      rw [hkey] at hcursor
      have hpassed : passed bus = d.cursor := by
        rw [passed, hbefore, hcursor]
        rfl
      refine ⟨?_, fun e he => ?_⟩
      · rw [hpassed, passed, hlater]
        simp [StreamServer.broadcasts, hcursor]
      · rw [hpassed, ← Option.some.inj he]
        exact hevent
    | other =>
      have hsame : ¬ (d.key = key ∧ d.called = (bus.groupHandlers key).idxOf .sseHub) := by
        rintro ⟨hkey, hcalled⟩
        rw [hkey, hcalled] at hh
        have hself := List.getElem_idxOf (List.idxOf_lt_length_iff.mpr (h.mem rfl))
        rw [List.getElem?_eq_getElem (List.idxOf_lt_length_iff.mpr (h.mem rfl)), hself] at hh
        cases hh
      refine ⟨?_, fun e he => by cases he⟩
      rw [passed, passed, hbefore, hlater]
      simp only [StreamServer.broadcasts, Option.bind_some, Option.toList_none, List.length_nil, Nat.add_zero]
      congr 3
      by_cases hkey : d.key = key
      · simp only [hkey, true_and]
        have hne : d.called ≠ (bus.groupHandlers key).idxOf .sseHub := fun heq => hsame ⟨hkey, heq⟩
        exact propext ⟨fun hlt => by omega, fun hlt => by omega⟩
      · simp [hkey]
  | handedOut d hd hh =>
    obtain ⟨hcursor, -, -⟩ := h.inv.delivery hp hd
    refine ⟨?_, fun e he => by cases he⟩
    have hafter : heard { bus with
        groupCursors := bus.groupCursors.set d.key (d.cursor + 1)
        draining := some { p with pos := p.pos + 1, madeProgress := true, delivery := none } } = false :=
      heard_of_round rfl rfl
    rw [passed, passed, heard_of_delivery hp hd, hafter, InsertionMap.get_set]
    by_cases hkey : key = d.key
    · -- every handler of the group has been called, and so has the hub
      have hcalled := List.getElem?_eq_none_iff.mp hh
      have hidx := List.idxOf_lt_length_iff.mpr (h.mem rfl)
      rw [← hkey] at hcalled hcursor
      rw [if_pos hkey, decide_eq_true ⟨hkey.symm, by omega⟩, hcursor]
      rfl
    · rw [if_neg hkey, decide_eq_false fun hboth => hkey hboth.1.symm]
      rfl
  | round hd =>
    have hafter : heard { bus with draining := some { p with pos := 0, madeProgress := false } } = false :=
      heard_of_round rfl hd
    refine ⟨?_, fun e he => by cases he⟩
    rw [passed, passed, hafter, heard_of_round hp hd]
    rfl
  | finish hd =>
    have hafter : heard { bus with draining := none } = false := heard_of_none rfl
    refine ⟨?_, fun e he => by cases he⟩
    rw [passed, passed, hafter, heard_of_round hp hd]
    rfl
  | skip k cursor hd =>
    have hafter : heard { bus with draining := some { p with pos := p.pos + 1 } } = false :=
      heard_of_round rfl hd
    refine ⟨?_, fun e he => by cases he⟩
    rw [passed, passed, hafter, heard_of_round hp hd]
    rfl
  | take k cursor event hd =>
    have hafter : heard { bus with draining := some { p with delivery := some ⟨k, cursor, event, 0⟩ } } =
        decide (k = key ∧ (bus.groupHandlers key).idxOf .sseHub < 0) := rfl
    refine ⟨?_, fun e he => by cases he⟩
    rw [passed, passed, hafter, decide_eq_false fun hboth => Nat.not_lt_zero _ hboth.2, heard_of_round hp hd]
    rfl

/-- The hub has not gone past the end of the log. -/
theorem HubInv.passed_le (h : HubInv bus true) : passed bus ≤ (bus.history ORDERS_TOPIC).length := by
  obtain ⟨n, hn⟩ := Option.isSome_iff_exists.mp (h.known rfl)
  have hbound := h.inv.bounded hn
  rw [topic_key] at hbound
  rw [passed, hn, Option.getD_some]
  cases hq : bus.draining with
  | none => rwa [heard_of_none hq]
  | some p =>
    cases hd : p.delivery with
    | none => rwa [heard_of_round hq hd]
    | some d =>
      rw [heard_of_delivery hq hd]
      by_cases hboth : d.key = key ∧ (bus.groupHandlers key).idxOf .sseHub < d.called
      · obtain ⟨hcursor, -, hevent⟩ := h.inv.delivery hq hd
        rw [hboth.1, hn] at hcursor
        rw [h.topic hq] at hevent
        obtain ⟨hlt, -⟩ := List.getElem?_eq_some_iff.mp hevent
        rw [decide_eq_true hboth]
        have hsame := Option.some.inj hcursor
        show n + 1 ≤ (bus.topics ORDERS_TOPIC).length
        omega
      · rwa [decide_eq_false hboth]

/-- With no pass under way, a hub that is served has gone through the log. -/
theorem passed_of_served (hserved : Served bus ORDERS_TOPIC key) (hidle : bus.draining = none) :
    passed bus = (bus.history ORDERS_TOPIC).length := by
  rcases hserved with ⟨p, hp, -⟩ | hcursor
  · cases hidle.symm.trans hp
  · rw [passed, heard_of_none hidle, hcursor]
    rfl

end SseHub

namespace StreamServer

open SseHub (HubInv passed)

variable {owner : OrderId → Option String} {s s' : StreamServer} {res : Client} {a : StreamAction}
  {actions : List StreamAction}

/-! ## Steps -/

theorem hubInv_step (h : HubInv s.bus s.hub.isSome) (hs : s.step owner a = some s') :
    HubInv s'.bus s'.hub.isSome ∧ (s.hub.isSome = true → s'.hub.isSome = true) ∧ s.log <+: s'.log := by
  cases a with
  | go =>
    obtain ⟨p, hp, rfl⟩ := Option.map_eq_some_iff.mp hs
    obtain ⟨hbus, -, hhub⟩ := hub_drain s hp
    have hopened : (s.drain p).hub.isSome = s.hub.isSome := by
      rw [hhub, Option.isSome_map]
    refine ⟨hopened ▸ hbus ▸ h.drain hp, fun hsome => hopened.trans hsome, ?_⟩
    rw [log, log, InMemoryEventBus.history, InMemoryEventBus.history, hbus,
      (InMemoryEventBus.drain_frame h.inv hp).1]
  | elapse ms =>
    obtain rfl := Option.some.inj hs
    exact ⟨h, id, List.prefix_refl _⟩
  | createOrder id customerId lines amountCents =>
    obtain ⟨hidle, type, payload, rfl⟩ := step_publication rfl hs
    refine ⟨h.publish hidle _, fun hsome => hsome, ?_⟩
    rw [log, log, StreamServer.publish, InMemoryEventBus.history, InMemoryEventBus.history,
      InMemoryEventBus.topics_publish, if_pos rfl]
    exact List.prefix_append _ _
  | transition id type detail =>
    obtain ⟨hidle, type, payload, rfl⟩ := step_publication rfl hs
    refine ⟨h.publish hidle _, fun hsome => hsome, ?_⟩
    rw [log, log, StreamServer.publish, InMemoryEventBus.history, InMemoryEventBus.history,
      InMemoryEventBus.topics_publish, if_pos rfl]
    exact List.prefix_append _ _
  | subscribe groupId =>
    simp only [StreamServer.step, Option.ite_none_right_eq_some, Option.some.injEq] at hs
    obtain ⟨hidle, rfl⟩ := hs
    exact ⟨h.subscribe hidle groupId, id, List.prefix_refl _⟩
  | openHub =>
    simp only [StreamServer.step, Option.ite_none_right_eq_some, Option.some.injEq] at hs
    obtain ⟨⟨hidle, hnone⟩, rfl⟩ := hs
    rw [Option.isNone_iff_eq_none] at hnone
    rw [hnone] at h
    exact ⟨h.openHub hidle, fun _ => rfl, List.prefix_refl _⟩
  | addClient c =>
    simp only [StreamServer.step, Option.ite_none_right_eq_some, Option.map_eq_some_iff] at hs
    obtain ⟨-, hub, hhub, rfl⟩ := hs
    rw [hhub] at h
    exact ⟨h, fun _ => rfl, List.prefix_refl _⟩
  | close c =>
    simp only [StreamServer.step, Option.ite_none_right_eq_some, Option.map_eq_some_iff] at hs
    obtain ⟨-, hub, hhub, rfl⟩ := hs
    rw [hhub] at h
    exact ⟨h, fun _ => rfl, List.prefix_refl _⟩

theorem hubInv_run (h : HubInv s.bus s.hub.isSome) (hr : s.run owner actions = some s') :
    HubInv s'.bus s'.hub.isSome ∧ (s.hub.isSome = true → s'.hub.isSome = true) ∧ s.log <+: s'.log := by
  induction actions generalizing s with
  | nil =>
    obtain rfl := Option.some.inj hr
    exact ⟨h, fun hsome => hsome, List.prefix_refl _⟩
  | cons a actions ih =>
    obtain ⟨s₁, hs, hr⟩ := run_cons.mp hr
    obtain ⟨hinv₁, hsome₁, hlog₁⟩ := hubInv_step h hs
    obtain ⟨hinv, hsome, hlog⟩ := ih hinv₁ hr
    exact ⟨hinv, hsome ∘ hsome₁, hlog₁.trans hlog⟩

/-- Only a call of the hub moves it. -/
theorem passed_step (h : HubInv s.bus true) (hhub : s.hub.isSome = true) (hs : s.step owner a = some s') :
    passed s'.bus = passed s.bus + match a with
      | .go => s.offered.toList.length
      | _ => 0 := by
  cases a with
  | go =>
    obtain ⟨p, hp, rfl⟩ := Option.map_eq_some_iff.mp hs
    rw [(hub_drain s hp).1, (h.passed_drain hp).1, offered, hp, Option.bind_some]
  | elapse ms =>
    obtain rfl := Option.some.inj hs
    rfl
  | createOrder id customerId lines amountCents =>
    obtain ⟨-, type, payload, rfl⟩ := step_publication rfl hs
    exact SseHub.passed_publish s.bus _
  | transition id type detail =>
    obtain ⟨-, type, payload, rfl⟩ := step_publication rfl hs
    exact SseHub.passed_publish s.bus _
  | subscribe groupId =>
    simp only [StreamServer.step, Option.ite_none_right_eq_some, Option.some.injEq] at hs
    obtain ⟨-, rfl⟩ := hs
    exact h.passed_subscribe groupId
  | openHub =>
    simp only [StreamServer.step, Option.ite_none_right_eq_some, Option.some.injEq] at hs
    obtain ⟨⟨-, hnone⟩, rfl⟩ := hs
    rw [Option.isNone_iff_eq_none] at hnone
    rw [hnone] at hhub
    cases hhub
  | addClient c =>
    simp only [StreamServer.step, Option.ite_none_right_eq_some, Option.map_eq_some_iff] at hs
    obtain ⟨-, hub, -, rfl⟩ := hs
    rfl
  | close c =>
    simp only [StreamServer.step, Option.ite_none_right_eq_some, Option.map_eq_some_iff] at hs
    obtain ⟨-, hub, -, rfl⟩ := hs
    rfl

/-! ## A response that stays open -/

theorem connected_iff : s.Connected res ↔ ∃ hub, s.hub = some hub ∧ res ∈ hub.clients := by
  unfold Connected
  rw [Option.any_eq_true]
  constructor
  · rintro ⟨hub, hsome, hmem⟩
    exact ⟨hub, hsome, of_decide_eq_true hmem⟩
  · rintro ⟨hub, hsome, hmem⟩
    exact ⟨hub, hsome, decide_eq_true hmem⟩

theorem connected_step (hres : s.Connected res) (hclose : a ≠ .close res) (hs : s.step owner a = some s') :
    s'.Connected res := by
  obtain ⟨hub, hhub, hmem⟩ := connected_iff.mp hres
  cases a with
  | go =>
    obtain ⟨p, hp, rfl⟩ := Option.map_eq_some_iff.mp hs
    refine connected_iff.mpr ⟨_, by rw [(hub_drain s hp).2.2, hhub]; rfl, ?_⟩
    cases s.offered <;> exact hmem
  | elapse ms =>
    obtain rfl := Option.some.inj hs
    exact connected_iff.mpr ⟨hub, hhub, hmem⟩
  | createOrder id customerId lines amountCents =>
    obtain ⟨-, type, payload, rfl⟩ := step_publication rfl hs
    exact connected_iff.mpr ⟨hub, hhub, hmem⟩
  | transition id type detail =>
    obtain ⟨-, type, payload, rfl⟩ := step_publication rfl hs
    exact connected_iff.mpr ⟨hub, hhub, hmem⟩
  | subscribe groupId =>
    simp only [StreamServer.step, Option.ite_none_right_eq_some, Option.some.injEq] at hs
    obtain ⟨-, rfl⟩ := hs
    exact connected_iff.mpr ⟨hub, hhub, hmem⟩
  | openHub =>
    simp only [StreamServer.step, Option.ite_none_right_eq_some, Option.some.injEq] at hs
    obtain ⟨⟨-, hnone⟩, -⟩ := hs
    rw [hhub] at hnone
    cases hnone
  | addClient c =>
    simp only [StreamServer.step, Option.ite_none_right_eq_some, Option.map_eq_some_iff] at hs
    obtain ⟨-, hub', hhub', rfl⟩ := hs
    obtain rfl := Option.some.inj (hhub.symm.trans hhub')
    exact connected_iff.mpr ⟨_, rfl, SseHub.mem_addClient.mpr (.inl hmem)⟩
  | close c =>
    simp only [StreamServer.step, Option.ite_none_right_eq_some, Option.map_eq_some_iff] at hs
    obtain ⟨-, hub', hhub', rfl⟩ := hs
    obtain rfl := Option.some.inj (hhub.symm.trans hhub')
    have hne : res ≠ c := fun heq => hclose (by rw [heq])
    exact connected_iff.mpr ⟨_, rfl, List.mem_filter.mpr ⟨hmem, decide_eq_true hne⟩⟩

/-- A response that has not been added yet. -/
theorem untouched_step (h : s.written res = [] ∧ ¬ s.Connected res) (hadd : a ≠ .addClient res)
    (hs : s.step owner a = some s') : s'.written res = [] ∧ ¬ s'.Connected res := by
  obtain ⟨hwritten, hres⟩ := h
  constructor
  · rw [written_step hs, hwritten]
    cases a with
    | go => simp [hres]
    | addClient c =>
      have hne : res ≠ c := fun heq => hadd (by rw [heq])
      simp [hne]
    | _ => rfl
  · intro hres'
    obtain ⟨hub', hhub', hmem⟩ := connected_iff.mp hres'
    refine hres (connected_iff.mpr ?_)
    cases a with
    | go =>
      obtain ⟨p, hp, rfl⟩ := Option.map_eq_some_iff.mp hs
      rw [(hub_drain s hp).2.2] at hhub'
      obtain ⟨hub, hhub, rfl⟩ := Option.map_eq_some_iff.mp hhub'
      refine ⟨hub, hhub, ?_⟩
      cases ho : s.offered with
      | none => rwa [ho] at hmem
      | some e => rwa [ho] at hmem
    | elapse ms =>
      obtain rfl := Option.some.inj hs
      exact ⟨hub', hhub', hmem⟩
    | createOrder id customerId lines amountCents =>
      obtain ⟨-, type, payload, rfl⟩ := step_publication rfl hs
      exact ⟨hub', hhub', hmem⟩
    | transition id type detail =>
      obtain ⟨-, type, payload, rfl⟩ := step_publication rfl hs
      exact ⟨hub', hhub', hmem⟩
    | subscribe groupId =>
      simp only [StreamServer.step, Option.ite_none_right_eq_some, Option.some.injEq] at hs
      obtain ⟨-, rfl⟩ := hs
      exact ⟨hub', hhub', hmem⟩
    | openHub =>
      simp only [StreamServer.step, Option.ite_none_right_eq_some, Option.some.injEq] at hs
      obtain ⟨-, rfl⟩ := hs
      obtain rfl := Option.some.inj hhub'
      cases hmem
    | addClient c =>
      simp only [StreamServer.step, Option.ite_none_right_eq_some, Option.map_eq_some_iff] at hs
      obtain ⟨-, hub, hhub, rfl⟩ := hs
      obtain rfl := Option.some.inj hhub'
      have hne : res ≠ c := fun heq => hadd (by rw [heq])
      exact ⟨hub, hhub, (SseHub.mem_addClient.mp hmem).resolve_right hne⟩
    | close c =>
      simp only [StreamServer.step, Option.ite_none_right_eq_some, Option.map_eq_some_iff] at hs
      obtain ⟨-, hub, hhub, rfl⟩ := hs
      obtain rfl := Option.some.inj hhub'
      exact ⟨hub, hhub, (List.mem_filter.mp hmem).1⟩

/-- What an open response has been written: the events that the hub has gone past since the first `m`. -/
structure Follows (s : StreamServer) (res : Client) (m : Nat) : Prop where
  inv : HubInv s.bus true
  connected : s.Connected res
  le : m ≤ passed s.bus
  written : s.written res = [.head, .connected] ++ ((s.log.take (passed s.bus)).drop m).map .data

theorem Follows.step {m : Nat} (h : Follows s res m) (hadd : a ≠ .addClient res) (hclose : a ≠ .close res)
    (hs : s.step owner a = some s') : Follows s' res m := by
  have hhub : s.hub.isSome = true := by
    obtain ⟨hub, hsome, -⟩ := connected_iff.mp h.connected
    rw [hsome]
    rfl
  have hinv : HubInv s.bus s.hub.isSome := hhub.symm ▸ h.inv
  obtain ⟨hinv', hhub', hlog⟩ := hubInv_step hinv hs
  rw [hhub' hhub] at hinv'
  have hpassed := passed_step h.inv hhub hs
  have hle : passed s.bus ≤ s.log.length := h.inv.passed_le
  obtain ⟨more, hmore⟩ := hlog
  have htake : s'.log.take (passed s.bus) = s.log.take (passed s.bus) := by
    rw [← hmore, List.take_append_of_le_length hle]
  refine ⟨hinv', connected_step h.connected hclose hs, ?_, ?_⟩
  · rw [hpassed]
    exact Nat.le_add_right_of_le h.le
  · rw [written_step hs, h.written]
    cases a with
    | go =>
      simp only [if_pos h.connected, hpassed, List.append_assoc, ← List.map_append]
      congr 2
      cases ho : s.offered with
      | none =>
        rw [Option.toList_none, List.append_nil, List.length_nil, Nat.add_zero, htake]
      | some e =>
        obtain ⟨p, hp, -⟩ := Option.map_eq_some_iff.mp hs
        have hevent : s.log[passed s.bus]? = some e := by
          refine (h.inv.passed_drain hp).2 e ?_
          rwa [offered, hp] at ho
        have hlater : s'.log[passed s.bus]? = some e := by
          rw [← hmore, List.getElem?_append_left (List.getElem?_eq_some_iff.mp hevent).1, hevent]
        rw [Option.toList_some, List.length_singleton, ← htake, ObservedBus.take_succ_drop hlater h.le]
    | addClient c =>
      have hne : res ≠ c := fun heq => hadd (by rw [heq])
      simp only [if_neg hne, hpassed, List.append_nil, Nat.add_zero, htake]
    | _ => simp only [hpassed, List.append_nil, Nat.add_zero, htake]

theorem Follows.run {m : Nat} (h : Follows s res m) (hadd : .addClient res ∉ actions)
    (hclose : .close res ∉ actions) (hr : s.run owner actions = some s') : Follows s' res m := by
  induction actions generalizing s with
  | nil =>
    obtain rfl := Option.some.inj hr
    exact h
  | cons a actions ih =>
    obtain ⟨s₁, hs, hr⟩ := run_cons.mp hr
    rw [List.mem_cons, not_or] at hadd hclose
    exact ih (h.step (Ne.symm hadd.1) (Ne.symm hclose.1) hs) hadd.2 hclose.2 hr

/-! ## Passes that end -/

theorem served_step (h : HubInv s.bus s.hub.isSome) (hhub : s.hub.isSome = true)
    (hserved : Served s.bus ORDERS_TOPIC SseHub.key ∨ a.order?.isSome = true)
    (hs : s.step owner a = some s') : Served s'.bus ORDERS_TOPIC SseHub.key := by
  have hinv' := (hubInv_step h hs).1
  have hpublished : ∀ id type payload, s' = s.publish id type payload →
      Served s'.bus ORDERS_TOPIC SseHub.key := by
    rintro id type payload rfl
    have hdraining := draining_publish s.bus ORDERS_TOPIC
      { type, orderId := id, payload, «at» := s.clock, key := id }
    exact .inl ⟨_, hdraining, hinv'.topic hdraining⟩
  cases a with
  | go =>
    obtain ⟨p, hp, rfl⟩ := Option.map_eq_some_iff.mp hs
    rw [(hub_drain s hp).1]
    exact (hserved.resolve_right Bool.false_ne_true).drain h.inv SseHub.topic_key (h.known hhub) hp
  | elapse ms =>
    obtain rfl := Option.some.inj hs
    exact hserved.resolve_right Bool.false_ne_true
  | createOrder id customerId lines amountCents =>
    obtain ⟨-, type, payload, heq⟩ := step_publication rfl hs
    exact hpublished _ _ _ heq
  | transition id type detail =>
    obtain ⟨-, type, payload, heq⟩ := step_publication rfl hs
    exact hpublished _ _ _ heq
  | subscribe groupId =>
    simp only [StreamServer.step, Option.ite_none_right_eq_some, Option.some.injEq] at hs
    obtain ⟨-, rfl⟩ := hs
    rcases hserved.resolve_right Bool.false_ne_true with hpass | hcursor
    · exact .inl hpass
    · exact .inr ((InMemoryEventBus.get_isSome_subscribe _ (h.known hhub)).trans hcursor)
  | openHub =>
    simp only [StreamServer.step, Option.ite_none_right_eq_some, Option.some.injEq] at hs
    obtain ⟨⟨-, hnone⟩, -⟩ := hs
    rw [Option.isNone_iff_eq_none] at hnone
    rw [hnone] at hhub
    cases hhub
  | addClient c =>
    simp only [StreamServer.step, Option.ite_none_right_eq_some, Option.map_eq_some_iff] at hs
    obtain ⟨-, hub, -, rfl⟩ := hs
    exact hserved.resolve_right Bool.false_ne_true
  | close c =>
    simp only [StreamServer.step, Option.ite_none_right_eq_some, Option.map_eq_some_iff] at hs
    obtain ⟨-, hub, -, rfl⟩ := hs
    exact hserved.resolve_right Bool.false_ne_true

theorem served_run (h : HubInv s.bus s.hub.isSome) (hhub : s.hub.isSome = true)
    (hserved : Served s.bus ORDERS_TOPIC SseHub.key ∨ ∃ a ∈ actions, a.order?.isSome = true)
    (hr : s.run owner actions = some s') : Served s'.bus ORDERS_TOPIC SseHub.key := by
  induction actions generalizing s with
  | nil =>
    obtain rfl := Option.some.inj hr
    rcases hserved with hserved | ⟨a, ha, -⟩
    · exact hserved
    · cases ha
  | cons a actions ih =>
    obtain ⟨s₁, hs, hr⟩ := run_cons.mp hr
    obtain ⟨hinv, hsome, -⟩ := hubInv_step h hs
    refine ih hinv (hsome hhub) ?_ hr
    rcases hserved with hserved | ⟨a', ha', hpublishes⟩
    · exact .inl (served_step h hhub (.inl hserved) hs)
    · rcases List.mem_cons.mp ha' with rfl | hlater
      · exact .inl (served_step h hhub (.inr hpublishes) hs)
      · exact .inr ⟨a', hlater, hpublishes⟩

/-! ## The stream of a response -/

theorem untouched_run (h : s.written res = [] ∧ ¬ s.Connected res) (hadd : .addClient res ∉ actions)
    (hr : s.run owner actions = some s') : s'.written res = [] ∧ ¬ s'.Connected res := by
  induction actions generalizing s with
  | nil =>
    obtain rfl := Option.some.inj hr
    exact h
  | cons a actions ih =>
    obtain ⟨s₁, hs, hr⟩ := run_cons.mp hr
    rw [List.mem_cons, not_or] at hadd
    exact ih (untouched_step h (Ne.symm hadd.1) hs) hadd.2 hr

theorem follows_addClient (h : HubInv s.bus s.hub.isSome) (hnew : s.written res = [])
    (hs : s.step owner (.addClient res) = some s') : Follows s' res (passed s.bus) := by
  have hwritten : s'.written res = s.written res ++ if res = res then [.head, .connected] else [] :=
    written_step hs
  simp only [StreamServer.step, Option.ite_none_right_eq_some, Option.map_eq_some_iff] at hs
  obtain ⟨-, hub, hhub, rfl⟩ := hs
  rw [hhub] at h
  refine ⟨h, connected_iff.mpr ⟨_, rfl, SseHub.mem_addClient.mpr (.inr rfl)⟩, Nat.le_refl _, ?_⟩
  rw [hwritten, hnew]
  simp

theorem follows_of_run {before after : List StreamAction} {s₁ : StreamServer}
    (hbefore : started.run owner before = some s₁)
    (hr : s₁.run owner (.addClient res :: after) = some s)
    (hnew : .addClient res ∉ before ++ after) (hopen : .close res ∉ after) :
    Follows s res (passed s₁.bus) := by
  rw [List.mem_append, not_or] at hnew
  obtain ⟨hnew, honce⟩ := hnew
  obtain ⟨s₂, hs, hafter⟩ := run_cons.mp hr
  have hinv : HubInv s₁.bus s₁.hub.isSome := (hubInv_run SseHub.hubInv_empty hbefore).1
  have huntouched : s₁.written res = [] ∧ ¬ s₁.Connected res :=
    untouched_run ⟨rfl, fun hres => by cases hres⟩ hnew hbefore
  exact (follows_addClient hinv huntouched.1 hs).run honce hopen hafter

/-- A response that stays open has been written, at every moment, the events of the log from where the hub
was when the response was added up to where it is now: each one once, in the order of the log, and none that
was published since is left out once a pass has come to its end. -/
theorem stream_complete {before after : List StreamAction} {s₁ : StreamServer}
    (hbefore : started.run owner before = some s₁)
    (hr : s₁.run owner (.addClient res :: after) = some s)
    (hnew : .addClient res ∉ before ++ after) (hopen : .close res ∉ after) :
    s.written res = [.head, .connected] ++
        ((s.log.take (passed s.bus)).drop (passed s₁.bus)).map .data ∧
      s₁.log <+: s.log ∧ passed s₁.bus ≤ s₁.log.length ∧
      ((∃ a ∈ after, a.order?.isSome = true) → s.bus.draining = none → passed s.bus = s.log.length) := by
  obtain ⟨hinv, -, -⟩ := hubInv_run SseHub.hubInv_empty hbefore
  obtain ⟨s₂, hs, hafter⟩ := run_cons.mp hr
  obtain ⟨hinv₂, hsome, hlog₂⟩ := hubInv_step hinv hs
  have hhub : s₁.hub.isSome = true := by
    simp only [StreamServer.step, Option.ite_none_right_eq_some, Option.map_eq_some_iff] at hs
    obtain ⟨-, hub, hhub, -⟩ := hs
    rw [hhub]
    rfl
  refine ⟨(follows_of_run hbefore hr hnew hopen).written,
    hlog₂.trans (hubInv_run hinv₂ hafter).2.2, ?_, ?_⟩
  · rw [hhub] at hinv
    exact hinv.passed_le
  · intro hpublished hend
    exact SseHub.passed_of_served (served_run hinv₂ (hsome hhub) (.inr hpublished) hafter) hend

/-- A second order, published while the hub is awaited with the first. -/
def streamedOrders : List StreamAction :=
  [.createOrder "A" "alice" [⟨"sku", 2, "warehouse"⟩] 100, .go, .go,
    .createOrder "B" "bob" [⟨"sku", 1, "warehouse"⟩] 50] ++ List.replicate 8 .go

theorem streamedOrders_complete : ∃ s,
    started.run twoOwners ([.openHub] ++ .addClient 0 :: streamedOrders) = some s ∧
      s.log.length = 2 ∧ s.written 0 = [.head, .connected] ++ s.log.map .data := by
  have hopened : (started.run twoOwners [.openHub]).map (fun s => passed s.bus) = some 0 := by
    decide +kernel
  have hrun : (started.run twoOwners ([.openHub] ++ .addClient 0 :: streamedOrders)).map
      (fun s => (s.log.length, s.bus.draining.isNone)) = some (2, true) := by
    decide +kernel
  obtain ⟨s, hr, hseen⟩ := Option.map_eq_some_iff.mp hrun
  obtain ⟨hlength, hend⟩ := Prod.mk.inj hseen
  obtain ⟨s₁, hbefore, hafter⟩ := run_append.mp hr
  rw [hbefore, Option.map_some, Option.some.injEq] at hopened
  obtain ⟨hwritten, -, -, hall⟩ :=
    stream_complete hbefore hafter (by simp [streamedOrders]) (by simp [streamedOrders])
  rw [hall ⟨_, List.mem_cons_self, rfl⟩ (Option.isNone_iff_eq_none.mp hend), hopened, List.take_length,
    List.drop_zero] at hwritten
  exact ⟨s, hr, hlength, hwritten⟩

end StreamServer

end SupplyChain
