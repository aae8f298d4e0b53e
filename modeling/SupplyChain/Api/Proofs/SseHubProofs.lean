import SupplyChain.Api.SseHub
import SupplyChain.Events.Proofs.AlikeProofs

/-!
# Proofs: what the stream tells a client of the orders of others

The hub writes every event it is called with to every open response. A client of one business learns
nothing of the orders of another one exactly if the hub is not called with their events meanwhile.
-/

namespace SupplyChain

open SagaOrchestrator

theorem SseHub.mem_addClient {hub : SseHub} {res c : Client} :
    c ∈ (hub.addClient res).clients ↔ c ∈ hub.clients ∨ c = res := by
  unfold SseHub.addClient
  by_cases hres : res ∈ hub.clients
  · rw [if_pos hres]
    constructor
    · exact Or.inl
    · rintro (hc | rfl)
      · exact hc
      · exact hres
  · rw [if_neg hres, List.mem_append, List.mem_singleton]

namespace StreamServer

variable {owner owner' : OrderId → Option String} {b : Option String} {rename : OrderId → OrderId}
  {s s' t t' : StreamServer} {res : Client}

/-! ## Steps -/

theorem run_cons {a : StreamAction} {actions : List StreamAction} :
    s.run owner (a :: actions) = some s' ↔
      ∃ s₁, s.step owner a = some s₁ ∧ s₁.run owner actions = some s' := by
  rw [StreamServer.run, List.foldlM_cons]
  exact Option.bind_eq_some_iff

theorem run_append {before after : List StreamAction} :
    s.run owner (before ++ after) = some s' ↔
      ∃ s₁, s.run owner before = some s₁ ∧ s₁.run owner after = some s' := by
  rw [StreamServer.run, List.foldlM_append]
  exact Option.bind_eq_some_iff

/-- A publication, by `createOrder` or by a transition. -/
theorem step_publication {a : StreamAction} {id : OrderId} (ha : a.order? = some id)
    (hs : s.step owner a = some s') :
    s.bus.idle = true ∧ ∃ type payload, s' = s.publish id type payload := by
  cases a with
  | createOrder x customerId lines amountCents =>
    obtain rfl := Option.some.inj ha
    simp only [StreamServer.step, Option.ite_none_right_eq_some, Option.some.injEq] at hs
    exact ⟨hs.1, _, _, hs.2.symm⟩
  | transition x type detail =>
    obtain rfl := Option.some.inj ha
    simp only [StreamServer.step, Option.ite_none_right_eq_some, Option.some.injEq] at hs
    exact ⟨hs.1, _, _, hs.2.symm⟩
  | _ => cases ha

theorem hub_drain (s : StreamServer) {p : Pass DomainEvent} (hp : s.bus.draining = some p) :
    (s.drain p).bus = (s.bus.drain p).1 ∧ (s.drain p).clock = s.clock ∧
      (s.drain p).hub = s.hub.map fun hub => s.offered.elim hub hub.broadcast := by
  unfold drain offered
  rw [hp, Option.bind_some]
  rcases s.bus.drain p with ⟨bus, call⟩
  dsimp only
  cases call.bind broadcasts with
  | none =>
    refine ⟨rfl, rfl, ?_⟩
    simp
  | some event => exact ⟨rfl, rfl, rfl⟩

/-- What a step of the pass writes to a response. -/
theorem written_drain (s : StreamServer) {p : Pass DomainEvent} (hp : s.bus.draining = some p)
    (res : Client) : (s.drain p).written res = s.written res ++
      if s.Connected res then s.offered.toList.map .data else [] := by
  obtain ⟨-, -, hhub⟩ := hub_drain s hp
  unfold written
  rw [hhub]
  by_cases hres : s.Connected res
  · rw [if_pos hres]
    obtain ⟨hub, hsome, hmem⟩ := (Option.any_eq_true _ _).mp hres
    rw [hsome]
    cases s.offered <;> simp [SseHub.broadcast, of_decide_eq_true hmem]
  · rw [if_neg hres]
    cases hsome : s.hub with
    | none => simp
    | some hub =>
      have hmem : res ∉ hub.clients := by simpa [Connected, hsome] using hres
      cases s.offered <;> simp [SseHub.broadcast, hmem]

/-- What a step writes to a response. -/
theorem written_step {a : StreamAction} (hs : s.step owner a = some s') :
    s'.written res = s.written res ++ match a with
      | .go => if s.Connected res then s.offered.toList.map .data else []
      | .addClient c => if res = c then [.head, .connected] else []
      | _ => [] := by
  cases a with
  | go =>
    obtain ⟨p, hp, rfl⟩ := Option.map_eq_some_iff.mp hs
    exact written_drain s hp res
  | elapse ms =>
    obtain rfl := Option.some.inj hs
    simp [written]
  | createOrder id customerId lines amountCents =>
    obtain ⟨-, type, payload, rfl⟩ := step_publication rfl hs
    simp [written, StreamServer.publish]
  | transition id type detail =>
    obtain ⟨-, type, payload, rfl⟩ := step_publication rfl hs
    simp [written, StreamServer.publish]
  | subscribe groupId =>
    simp only [StreamServer.step, Option.ite_none_right_eq_some, Option.some.injEq] at hs
    obtain ⟨-, rfl⟩ := hs
    simp [written]
  | openHub =>
    simp only [StreamServer.step, Option.ite_none_right_eq_some, Option.some.injEq] at hs
    obtain ⟨⟨-, hnone⟩, rfl⟩ := hs
    rw [Option.isNone_iff_eq_none] at hnone
    simp [written, hnone, SseHub.opened]
  | addClient c =>
    simp only [StreamServer.step, Option.ite_none_right_eq_some, Option.map_eq_some_iff] at hs
    obtain ⟨-, hub, hhub, rfl⟩ := hs
    by_cases hres : res = c <;> simp [written, hhub, SseHub.addClient, hres]
  | close c =>
    simp only [StreamServer.step, Option.ite_none_right_eq_some, Option.map_eq_some_iff] at hs
    obtain ⟨-, hub, hhub, rfl⟩ := hs
    simp [written, hhub, SseHub.close]

/-- What was written stays written. -/
theorem mem_written_run {m : SseMessage} (hm : m ∈ s.written res) {actions : List StreamAction}
    (hr : s.run owner actions = some s') : m ∈ s'.written res := by
  induction actions generalizing s with
  | nil =>
    obtain rfl := Option.some.inj hr
    exact hm
  | cons a actions ih =>
    obtain ⟨s₁, hs, hr⟩ := run_cons.mp hr
    refine ih ?_ hr
    rw [written_step hs]
    exact List.mem_append_left _ hm

/-! ## Only own orders -/

/-- Whenever the pass calls the hub while the response is open, it is with an event of `b`. -/
def OffersOwn (owner : OrderId → Option String) (b : Option String) (res : Client) (s : StreamServer)
    (actions : List StreamAction) : Prop :=
  ∀ seen rest s₁ e, actions = seen ++ .go :: rest → s.run owner seen = some s₁ → s₁.Connected res →
    s₁.offered = some e → owner e.orderId = b

theorem OffersOwn.head {a : StreamAction} {actions : List StreamAction}
    (h : OffersOwn owner b res s (a :: actions)) (ha : a = .go) (hres : s.Connected res) {e : DomainEvent}
    (he : s.offered = some e) : owner e.orderId = b := by
  subst ha
  exact h [] actions s e rfl rfl hres he

theorem OffersOwn.tail {a : StreamAction} {actions : List StreamAction} {s₁ : StreamServer}
    (h : OffersOwn owner b res s (a :: actions)) (hs : s.step owner a = some s₁) :
    OffersOwn owner b res s₁ actions := by
  intro seen rest s₂ e hsplit hr hres he
  exact h (a :: seen) rest s₂ e (by rw [hsplit, List.cons_append]) (run_cons.mpr ⟨s₁, hs, hr⟩) hres he

theorem written_own (hown : ∀ e, .data e ∈ s.written res → owner e.orderId = b)
    {actions : List StreamAction} (h : OffersOwn owner b res s actions)
    (hr : s.run owner actions = some s') : ∀ e, .data e ∈ s'.written res → owner e.orderId = b := by
  induction actions generalizing s with
  | nil =>
    obtain rfl := Option.some.inj hr
    exact hown
  | cons a actions ih =>
    obtain ⟨s₁, hs, hr⟩ := run_cons.mp hr
    refine ih (fun e he => ?_) (h.tail hs) hr
    rw [written_step hs] at he
    rcases List.mem_append.mp he with he | he
    · exact hown e he
    · cases a with
      | go =>
        simp only at he
        split at he
        · rename_i hres
          obtain ⟨e', he', heq⟩ := List.mem_map.mp he
          obtain rfl := SseMessage.data.inj heq
          exact h.head rfl hres (Option.mem_toList.mp he')
        · cases he
      | addClient c =>
        simp only at he
        split at he <;> simp at he
      | _ => cases he

/-! ## Two runs -/

/-- Events that are the same if they are about an order of `b`. -/
def SameFor (owner : OrderId → Option String) (b : Option String) (e e' : DomainEvent) : Prop :=
  owner e.orderId = b → e' = e

/-- Two servers that have told a client the same. -/
structure Twin (owner : OrderId → Option String) (b : Option String) (res : Client)
    (s t : StreamServer) : Prop where
  clock : t.clock = s.clock
  bus : InMemoryEventBus.Alike (SameFor owner b) s.bus t.bus
  opened : t.hub.isNone = s.hub.isNone
  connected : t.Connected res ↔ s.Connected res
  written : t.written res = s.written res

theorem twin_started : Twin owner b res started started where
  clock := rfl
  bus := InMemoryEventBus.alike_empty
  opened := rfl
  connected := Iff.rfl
  written := rfl

/-- The calls of the hub match. -/
theorem Twin.offered (h : Twin owner b res s t) :
    Option.Rel (SameFor owner b) s.offered t.offered := by
  have hdraining := h.bus.draining
  unfold StreamServer.offered
  revert hdraining
  cases s.bus.draining <;> cases t.bus.draining <;> rintro ⟨⟩
  · exact .none
  · rename_i hp
    have hcall := (h.bus.drain hp).2
    simp only [Option.bind_some]
    revert hcall
    rcases (s.bus.drain _).2 with _ | ⟨_, _, handler, _, _⟩ <;>
      rcases (t.bus.drain _).2 with _ | ⟨_, _, handler', _, _⟩ <;> rintro ⟨⟩
    · exact .none
    · rename_i hc
      obtain rfl : handler' = handler := hc.handler
      cases handler' with
      | sseHub => exact .some hc.event
      | other => exact .none

/-- Both publish, an event of `b` or different ones. -/
theorem Twin.publish (h : Twin owner b res s t) {id id' : OrderId} {type type' : EventType}
    {payload payload' : EventDetail}
    (hsame : owner id = b → id' = id ∧ type' = type ∧ payload' = payload) :
    Twin owner b res (s.publish id type payload) (t.publish id' type' payload') where
  clock := h.clock
  bus := by
    refine h.bus.publish (fun hown => ?_) ORDERS_TOPIC
    obtain ⟨rfl, rfl, rfl⟩ := hsame hown
    rw [h.clock]
  opened := h.opened
  connected := h.connected
  written := h.written

theorem Twin.drain (h : Twin owner b res s t) {p p' : Pass DomainEvent} (hp : s.bus.draining = some p)
    (hp' : t.bus.draining = some p')
    (hown : s.Connected res → ∀ e, s.offered = some e → owner e.orderId = b) :
    Twin owner b res (s.drain p) (t.drain p') := by
  obtain ⟨hbus, hclock, hhub⟩ := hub_drain s hp
  obtain ⟨hbus', hclock', hhub'⟩ := hub_drain t hp'
  have hpass : Pass.Alike (SameFor owner b) p p' := by
    have hdraining := h.bus.draining
    rw [hp, hp'] at hdraining
    cases hdraining with
    | some hpass => exact hpass
  refine
    { clock := by rw [hclock, hclock', h.clock]
      bus := by rw [hbus, hbus']; exact (h.bus.drain hpass).1
      opened := by rw [hhub, hhub', Option.isNone_map, Option.isNone_map, h.opened]
      connected := ?connected
      written := ?written }
  case connected =>
    have hclients : ∀ (hub : SseHub) (e : Option DomainEvent),
        (e.elim hub hub.broadcast).clients = hub.clients := by
      intro hub e
      cases e <;> rfl
    unfold Connected
    rw [hhub, hhub', Option.any_map, Option.any_map]
    simp only [hclients]
    exact h.connected
  case written =>
    rw [written_drain s hp, written_drain t hp', h.written]
    congr 1
    by_cases hres : s.Connected res
    · rw [if_pos hres, if_pos (h.connected.mpr hres)]
      have hoffered := h.offered
      generalize t.offered = offered' at hoffered ⊢
      cases hs : s.offered with
      | none =>
        rw [hs] at hoffered
        cases hoffered
        rfl
      | some e =>
        have hsame := hown hres e hs
        rw [hs] at hoffered
        cases hoffered with
        | some he => rw [he hsame]
    · rw [if_neg hres, if_neg fun hres' => hres (h.connected.mp hres')]

theorem Twin.step (h : Twin owner b res s t) (hr : Renaming owner owner' b rename) {a a' : StreamAction}
    (ha : StreamAction.Alike owner b rename a a') (hs : s.step owner a = some s')
    (ht : t.step owner' a' = some t')
    (hown : a = .go → s.Connected res → ∀ e, s.offered = some e → owner e.orderId = b) :
    Twin owner b res s' t' := by
  cases ha with
  | createOrder hother customerId customerId' lines lines' amountCents amountCents' =>
    simp only [StreamServer.step, Option.ite_none_right_eq_some, Option.some.injEq] at hs ht
    obtain ⟨-, rfl⟩ := hs
    obtain ⟨-, rfl⟩ := ht
    exact h.publish fun hsame => absurd hsame hother
  | transition hother type detail detail' =>
    simp only [StreamServer.step, Option.ite_none_right_eq_some, Option.some.injEq] at hs ht
    obtain ⟨-, rfl⟩ := hs
    obtain ⟨-, rfl⟩ := ht
    exact h.publish fun hsame => absurd hsame hother
  | same hsubject =>
    cases a with
    | createOrder id customerId lines amountCents =>
      have hid := hsubject id rfl
      have howner : owner' id = owner id := by
        have howned := hr.owned id
        rwa [hr.own id hid] at howned
      simp only [StreamServer.step, Option.ite_none_right_eq_some, Option.some.injEq] at hs ht
      obtain ⟨-, rfl⟩ := hs
      obtain ⟨-, rfl⟩ := ht
      rw [howner]
      exact h.publish fun _ => ⟨rfl, rfl, rfl⟩
    | transition id type detail =>
      simp only [StreamServer.step, Option.ite_none_right_eq_some, Option.some.injEq] at hs ht
      obtain ⟨-, rfl⟩ := hs
      obtain ⟨-, rfl⟩ := ht
      exact h.publish fun _ => ⟨rfl, rfl, rfl⟩
    | subscribe groupId =>
      simp only [StreamServer.step, Option.ite_none_right_eq_some, Option.some.injEq] at hs ht
      obtain ⟨-, rfl⟩ := hs
      obtain ⟨-, rfl⟩ := ht
      exact ⟨h.clock, h.bus.subscribe _ _ _, h.opened, h.connected, h.written⟩
    | openHub =>
      simp only [StreamServer.step, Option.ite_none_right_eq_some, Option.some.injEq] at hs ht
      obtain ⟨-, rfl⟩ := hs
      obtain ⟨-, rfl⟩ := ht
      exact ⟨h.clock, h.bus.subscribe _ _ _, rfl, Iff.rfl, rfl⟩
    | addClient c =>
      have hwritten := (written_step ht).trans
        ((congrArg (· ++ _) h.written).trans (written_step hs).symm)
      simp only [StreamServer.step, Option.ite_none_right_eq_some, Option.map_eq_some_iff] at hs ht
      obtain ⟨-, hub, hhub, rfl⟩ := hs
      obtain ⟨-, hub', hhub', rfl⟩ := ht
      refine ⟨h.clock, h.bus, rfl, ?_, hwritten⟩
      have hconnected := h.connected
      simp only [Connected, hhub, hhub', Option.any_some, decide_eq_true_eq] at hconnected
      simp only [Connected, Option.any_some, decide_eq_true_eq, SseHub.mem_addClient, hconnected]
    | close c =>
      have hwritten := (written_step ht).trans
        ((congrArg (· ++ _) h.written).trans (written_step hs).symm)
      simp only [StreamServer.step, Option.ite_none_right_eq_some, Option.map_eq_some_iff] at hs ht
      obtain ⟨-, hub, hhub, rfl⟩ := hs
      obtain ⟨-, hub', hhub', rfl⟩ := ht
      refine ⟨h.clock, h.bus, rfl, ?_, hwritten⟩
      have hconnected := h.connected
      simp only [Connected, hhub, hhub', Option.any_some, decide_eq_true_eq] at hconnected
      simp only [Connected, Option.any_some, decide_eq_true_eq, SseHub.close, List.mem_filter, hconnected]
    | elapse ms =>
      obtain rfl := Option.some.inj hs
      obtain rfl := Option.some.inj ht
      exact ⟨congrArg (· + ms) h.clock, h.bus, h.opened, h.connected, h.written⟩
    | go =>
      obtain ⟨p, hp, rfl⟩ := Option.map_eq_some_iff.mp hs
      obtain ⟨p', hp', rfl⟩ := Option.map_eq_some_iff.mp ht
      exact h.drain hp hp' (hown rfl)

theorem Twin.run (h : Twin owner b res s t) (hren : Renaming owner owner' b rename)
    {actions actions' : List StreamAction}
    (ha : List.Forall₂ (StreamAction.Alike owner b rename) actions actions')
    (hs : s.run owner actions = some s') (ht : t.run owner' actions' = some t')
    (hown : OffersOwn owner b res s actions) : Twin owner b res s' t' := by
  induction ha generalizing s t with
  | nil =>
    obtain rfl := Option.some.inj hs
    obtain rfl := Option.some.inj ht
    exact h
  | cons hfirst _ ih =>
    obtain ⟨s₁, hs₁, hs⟩ := run_cons.mp hs
    obtain ⟨t₁, ht₁, ht⟩ := run_cons.mp ht
    exact ih (h.step hren hfirst hs₁ ht₁ fun hgo hres e he => hown.head hgo hres he) hs ht (hown.tail hs₁)

/-- A response of business `b` is sent the same in every run that differs from this one only in the orders
of others, and nothing about these, exactly if the hub is called only with events of `b` while the
response is open. -/
theorem stream_isolated_iff {actions : List StreamAction} (hr : started.run owner actions = some s)
    (b : Option String) (res : Client) :
    ((∀ owner' rename actions' s', Renaming owner owner' b rename →
        List.Forall₂ (StreamAction.Alike owner b rename) actions actions' →
        started.run owner' actions' = some s' → s'.written res = s.written res) ∧
      ∀ e, .data e ∈ s.written res → owner e.orderId = b) ↔
    ∀ seen rest s₁ e, actions = seen ++ .go :: rest → started.run owner seen = some s₁ →
      s₁.Connected res → s₁.offered = some e → owner e.orderId = b := by
  constructor
  · rintro ⟨-, hcontents⟩ seen rest s₁ e rfl hseen hres he
    obtain ⟨s₁', hseen', hrest⟩ := run_append.mp hr
    obtain rfl := Option.some.inj (hseen.symm.trans hseen')
    obtain ⟨s₂, hgo, hrest⟩ := run_cons.mp hrest
    refine hcontents e (mem_written_run ?_ hrest)
    rw [written_step hgo]
    simp [hres, he]
  · intro hown
    refine ⟨fun owner' rename actions' s' hren halike hr' => ?_, ?_⟩
    · exact (twin_started.run hren halike hr hr' hown).written
    · exact written_own (fun e he => by cases he) hown hr

/-! ## A stream that is closed in time, and one that is not -/

/-- Order `A` belongs to one business and every other order to another one. -/
def twoOwners (id : OrderId) : Option String := if id = "A" then some "acme" else some "bolt"

/-- A client that connects, and an order `A` of the customer that is handed to the hub. -/
def firstOrder (customerId : String) : List StreamAction :=
  [.openHub, .addClient 0, .createOrder "A" customerId [⟨"sku", 2, "warehouse"⟩] 100] ++
    List.replicate 6 .go

/-- What `createOrder` publishes for a customer. -/
def createdOrder (customerId : String) : DomainEvent :=
  { type := .created, orderId := "A", «at» := 0, key := "A",
    payload := (OrderRequest.created ⟨customerId, [⟨"sku", 2, "warehouse"⟩], 100, some "acme"⟩).2 }

/-- The client is gone before the other business orders. -/
def closedInTime : List StreamAction :=
  firstOrder "alice" ++ [.close 0, .createOrder "B" "bob" [⟨"sku", 1, "warehouse"⟩] 50, .go, .go]

theorem closedInTime_isolated : ∃ s, started.run twoOwners closedInTime = some s ∧
    (s.bus.history ORDERS_TOPIC).length = 2 ∧
    ∀ e, .data e ∈ s.written 0 → twoOwners e.orderId = some "acme" := by
  have hrun : (started.run twoOwners closedInTime).map
      (fun s => (s.bus.history ORDERS_TOPIC).length) = some 2 := by
    decide +kernel
  obtain ⟨s, hr, hlog⟩ := Option.map_eq_some_iff.mp hrun
  have hown : ∀ n < 14, ∀ s ∈ started.run twoOwners (closedInTime.take n), s.Connected 0 →
      ∀ e ∈ s.offered, twoOwners e.orderId = some "acme" := by
    decide +kernel
  refine ⟨s, hr, hlog, ((stream_isolated_iff hr (some "acme") 0).mpr ?_).2⟩
  intro seen rest s₁ e hsplit hseen hres he
  have hlength : seen.length < 14 := by
    have hall := congrArg List.length hsplit
    simp [closedInTime, firstOrder] at hall
    omega
  have htake : seen = closedInTime.take seen.length := by
    rw [hsplit]
    simp
  rw [htake] at hseen
  exact hown _ hlength s₁ hseen hres e he

/-- A client of the other business is sent the order, and what it is sent depends on the customer. -/
theorem stream_reveals_orders :
    (¬ ∀ (owner : OrderId → Option String) (b : Option String) (res : Client) (actions : List StreamAction)
      (s : StreamServer), started.run owner actions = some s →
      ∀ e, .data e ∈ s.written res → owner e.orderId = b) ∧
    ¬ ∀ (owner owner' : OrderId → Option String) (rename : OrderId → OrderId) (b : Option String)
      (res : Client) (actions actions' : List StreamAction) (s s' : StreamServer),
      Renaming owner owner' b rename → List.Forall₂ (StreamAction.Alike owner b rename) actions actions' →
      started.run owner actions = some s → started.run owner' actions' = some s' →
      s'.written res = s.written res := by
  have hrun : ∀ customerId ∈ ["alice", "mallory"],
      (started.run twoOwners (firstOrder customerId)).map (fun s => s.written 0) =
        some [.head, .connected, .data (createdOrder customerId)] := by
    decide +kernel
  obtain ⟨s, hr, hwritten⟩ := Option.map_eq_some_iff.mp (hrun "alice" (by simp))
  obtain ⟨s', hr', hwritten'⟩ := Option.map_eq_some_iff.mp (hrun "mallory" (by simp))
  constructor
  · intro hall
    have hmem : SseMessage.data (createdOrder "alice") ∈ s.written 0 := by
      rw [hwritten]
      exact List.mem_cons_of_mem _ (List.mem_cons_of_mem _ List.mem_cons_self)
    have hother := hall twoOwners (some "bolt") 0 _ s hr _ hmem
    revert hother
    decide
  · intro hall
    have halike : List.Forall₂ (StreamAction.Alike twoOwners (some "bolt") id) (firstOrder "alice")
        (firstOrder "mallory") := by
      refine List.rel_append ?_ (List.forall₂_same.mpr fun a ha => ?_)
      · refine .cons (.same fun x hx => ?_) (.cons (.same fun x hx => ?_)
          (.cons (.createOrder ?_ _ _ _ _ _ _) .nil))
        · cases hx
        · cases hx
        · decide
      · rw [List.eq_of_mem_replicate ha]
        exact .same fun x hx => by cases hx
    have hsame := hall twoOwners twoOwners id (some "bolt") 0 _ _ s s'
      ⟨Function.injective_id, fun _ => rfl, fun _ _ => rfl⟩ halike hr hr'
    rw [hwritten, hwritten'] at hsame
    revert hsame
    decide

end StreamServer

end SupplyChain
