import SupplyChain.Events.Proofs.EventBusProofs

/-!
# Proofs: when a group has received the whole log

A publication starts a pass over its topic or finds one under way, and a pass over a topic ends only when
all its groups have caught up. A pass over another topic does not look at the publication.
-/

namespace SupplyChain

open Collections

namespace InMemoryEventBus

variable {E H : Type} {bus : InMemoryEventBus E H} {topic key : String}

/-- A pass over the topic is under way, or the group is at the end of the log. -/
def Served (bus : InMemoryEventBus E H) (topic key : String) : Prop :=
  (∃ p, bus.draining = some p ∧ p.topic = topic) ∨
    bus.groupCursors.get key = some (bus.topics topic).length

/-- No pass over the topic is under way, and the group is not at the end of the log. -/
def Missed (bus : InMemoryEventBus E H) (topic key : String) : Prop :=
  (∀ p, bus.draining = some p → p.topic ≠ topic) ∧
    bus.groupCursors.get key ≠ some (bus.topics topic).length

theorem get_isSome_subscribe {groupId : String} {t : String} (handler : H)
    (h : (bus.groupCursors.get key).isSome = true) :
    (bus.subscribe t groupId handler).groupCursors.get key = bus.groupCursors.get key := by
  obtain ⟨n, hn⟩ := Option.isSome_iff_exists.mp h
  rw [get_subscribe, hn]
  split <;> rfl

/-- A pass leaves the log alone, keeps its topic until it ends, and moves only cursors of its topic. -/
theorem drain_frame (h : bus.Inv) {p : Pass E} (hp : bus.draining = some p) :
    (bus.drain p).1.topics = bus.topics ∧
      (∀ q, (bus.drain p).1.draining = some q → q.topic = p.topic) ∧
      (∀ key, (splitKey key).1 ≠ p.topic →
        (bus.drain p).1.groupCursors.get key = bus.groupCursors.get key) ∧
      ∀ key, (bus.groupCursors.get key).isSome = true →
        ((bus.drain p).1.groupCursors.get key).isSome = true := by
  generalize hout : bus.drain p = out
  have hstep : DrainStep bus p out := hout ▸ drain_step bus p
  cases hstep with
  | handedOut d hd hh =>
    obtain ⟨-, htopic, -⟩ := h.delivery hp hd
    refine ⟨rfl, ?_, fun key hkey => ?_, fun key hkey => ?_⟩
    · intro q hq
      rw [← Option.some.inj hq]
    · rw [InsertionMap.get_set, if_neg]
      rintro rfl
      exact hkey htopic
    · rw [InsertionMap.get_set]
      split
      · rfl
      · exact hkey
  | finish hd he hm =>
    refine ⟨rfl, ?_, fun _ _ => rfl, fun _ hkey => hkey⟩
    intro q hq
    cases hq
  | _ =>
    refine ⟨rfl, ?_, fun _ _ => rfl, fun _ hkey => hkey⟩
    intro q hq
    rw [← Option.some.inj hq]

/-- The end of a pass over the topic, and every other step of a pass, keep the group served. -/
theorem Served.drain (h : bus.Inv) (hkey : (splitKey key).1 = topic)
    (hpresent : (bus.groupCursors.get key).isSome = true) (hs : Served bus topic key) {p : Pass E}
    (hp : bus.draining = some p) : Served (bus.drain p).1 topic key := by
  obtain ⟨htopics, htopic, hframe, -⟩ := drain_frame h hp
  by_cases ht : p.topic = topic
  · cases hq : (bus.drain p).1.draining with
    | some q => exact Or.inl ⟨q, hq, (htopic q hq).trans ht⟩
    | none =>
      refine Or.inr ?_
      obtain ⟨n, hn⟩ := Option.isSome_iff_exists.mp hpresent
      have hend := h.finished hp hq hn (hkey.trans ht.symm)
      have hsame : (bus.drain p).1.groupCursors.get key = bus.groupCursors.get key := by
        generalize hout : bus.drain p = out at hq
        have hstep : DrainStep bus p out := hout ▸ drain_step bus p
        cases hstep with
        | finish hd he hm => rfl
        | _ => cases hq
      rw [hsame, hn, hend, htopics, ht]
  · rcases hs with ⟨q, hq, hqt⟩ | hcursor
    · obtain rfl := Option.some.inj (hp.symm.trans hq)
      exact absurd hqt ht
    · exact Or.inr (by rw [hframe key fun heq => ht (heq.symm.trans hkey), htopics, hcursor])

theorem Missed.drain (h : bus.Inv) (hkey : (splitKey key).1 = topic) (hs : Missed bus topic key)
    {p : Pass E} (hp : bus.draining = some p) : Missed (bus.drain p).1 topic key := by
  obtain ⟨htopics, htopic, hframe, -⟩ := drain_frame h hp
  have ht : p.topic ≠ topic := hs.1 p hp
  refine ⟨fun q hq => (htopic q hq).symm ▸ ht, ?_⟩
  rw [hframe key fun heq => ht (heq.symm.trans hkey), htopics]
  exact hs.2

end InMemoryEventBus

namespace ObservedBus

open InMemoryEventBus (Served Missed)

variable {E H : Type} {o o' : ObservedBus E H} {topic key : String}

/-- Each step that does not publish on the topic keeps a group of the topic served, or not. -/
theorem Inv.served_step (h : Inv o) (hkey : (splitKey key).1 = topic)
    (hpresent : (o.bus.groupCursors.get key).isSome = true) {a : BusAction E H}
    (ha : a.isPublishOn topic = false) (hs : o.step a = some o') :
    (o'.bus.groupCursors.get key).isSome = true ∧
      (Served o.bus topic key → Served o'.bus topic key) ∧
      (Missed o.bus topic key → Missed o'.bus topic key) := by
  cases a with
  | publish t event =>
    have ht : topic ≠ t := by
      rintro rfl
      simp [BusAction.isPublishOn] at ha
    obtain ⟨-, rfl⟩ := step_publish hs
    have hcursors : (o.publish t event).bus.groupCursors = _ := o.bus.groupCursors_publish t event
    have htopics : (o.publish t event).bus.topics topic = o.bus.topics topic := by
      rw [ObservedBus.publish, InMemoryEventBus.topics_publish, if_neg ht]
    have hdraining : (o.publish t event).bus.draining = _ := o.bus.draining_publish t event
    refine ⟨hcursors ▸ hpresent, ?_, ?_⟩
    · rintro (⟨p, hp, hpt⟩ | hcursor)
      · refine Or.inl ⟨p, ?_, hpt⟩
        rw [hdraining, hp]
        rfl
      · exact Or.inr (by rw [hcursors, htopics, hcursor])
    · rintro ⟨hother, hcursor⟩
      refine ⟨fun p hp => ?_, by rwa [hcursors, htopics]⟩
      rw [hdraining] at hp
      obtain rfl := Option.some.inj hp
      cases hq : o.bus.draining with
      | none => exact ht.symm
      | some q => exact hother q hq
  | subscribe t groupId handler =>
    obtain ⟨-, rfl⟩ := step_subscribe hs
    have hget : (o.subscribe t groupId handler).bus.groupCursors.get key =
        o.bus.groupCursors.get key :=
      InMemoryEventBus.get_isSome_subscribe handler hpresent
    refine ⟨hget ▸ hpresent, ?_, ?_⟩
    · rintro (hp | hcursor)
      · exact Or.inl hp
      · exact Or.inr (hget.trans hcursor)
    · rintro ⟨hother, hcursor⟩
      exact ⟨hother, hget ▸ hcursor⟩
  | go =>
    obtain ⟨p, hp, rfl⟩ := Option.map_eq_some_iff.mp hs
    obtain ⟨-, -, -, hkept⟩ := InMemoryEventBus.drain_frame h.bus hp
    exact ⟨hkept key hpresent, fun hserved => hserved.drain h.bus hkey hpresent hp,
      fun hmissed => hmissed.drain h.bus hkey hp⟩

theorem Inv.served_run (h : Inv o) (hkey : (splitKey key).1 = topic)
    (hpresent : (o.bus.groupCursors.get key).isSome = true) {actions : List (BusAction E H)}
    (ha : ∀ a ∈ actions, a.isPublishOn topic = false) (hr : o.run actions = some o') :
    (Served o.bus topic key → Served o'.bus topic key) ∧
      (Missed o.bus topic key → Missed o'.bus topic key) := by
  induction actions generalizing o with
  | nil =>
    obtain rfl := Option.some.inj hr
    exact ⟨id, id⟩
  | cons a actions ih =>
    obtain ⟨o₁, hs, hr⟩ := run_cons.mp hr
    rw [List.forall_mem_cons] at ha
    obtain ⟨hpresent₁, hserved₁, hmissed₁⟩ := h.served_step hkey hpresent ha.1 hs
    obtain ⟨hserved, hmissed⟩ := ih (h.step hs) hpresent₁ ha.2 hr
    exact ⟨hserved ∘ hserved₁, hmissed ∘ hmissed₁⟩

/-! ## Groups that are subscribed -/

theorem get_isSome_step (h : o.bus.Inv) (hpresent : (o.bus.groupCursors.get key).isSome = true)
    {a : BusAction E H} (hs : o.step a = some o') :
    (o'.bus.groupCursors.get key).isSome = true := by
  cases a with
  | publish t event =>
    obtain ⟨-, rfl⟩ := step_publish hs
    rw [ObservedBus.publish, InMemoryEventBus.groupCursors_publish]
    exact hpresent
  | subscribe t groupId handler =>
    obtain ⟨-, rfl⟩ := step_subscribe hs
    rw [ObservedBus.subscribe, InMemoryEventBus.get_isSome_subscribe handler hpresent]
    exact hpresent
  | go =>
    obtain ⟨p, hp, rfl⟩ := Option.map_eq_some_iff.mp hs
    exact (InMemoryEventBus.drain_frame h hp).2.2.2 key hpresent

theorem get_isSome_run {actions : List (BusAction E H)} (h : Inv o)
    (hpresent : (o.bus.groupCursors.get key).isSome = true) (hr : o.run actions = some o') :
    (o'.bus.groupCursors.get key).isSome = true := by
  induction actions generalizing o with
  | nil =>
    obtain rfl := Option.some.inj hr
    exact hpresent
  | cons a actions ih =>
    obtain ⟨o₁, hs, hr⟩ := run_cons.mp hr
    exact ih (h.step hs) (get_isSome_step h.bus hpresent hs) hr

/-- A group that was subscribed in a run has a cursor at its end. -/
theorem get_isSome_of_subscribe {actions : List (BusAction E H)} (h : Inv o) {groupId : String}
    {handler : H} (hmem : .subscribe topic groupId handler ∈ actions)
    (hr : o.run actions = some o') :
    (o'.bus.groupCursors.get (groupKey topic groupId)).isSome = true := by
  induction actions generalizing o with
  | nil => cases hmem
  | cons a actions ih =>
    obtain ⟨o₁, hs, hrest⟩ := run_cons.mp hr
    rcases List.mem_cons.mp hmem with rfl | hmem
    · refine get_isSome_run (h.step hs) ?_ hrest
      obtain ⟨-, rfl⟩ := step_subscribe hs
      rw [get_subscribe, if_pos rfl]
      rfl
    · exact ih (h.step hs) hmem hrest

/-! ## The results -/

variable {groupId : String} {n : Nat}

theorem GroupInv.handedOver (h : GroupInv o (groupKey topic groupId)) (htopic : ':' ∉ topic.toList)
    (hn : o.bus.groupCursors.get (groupKey topic groupId) = some n) :
    o.HandedOver topic groupId n := by
  refine ⟨h.subscribed, h.first hn, fun position since hs => ?_⟩
  have hhanded := h.handed hn hs
  rwa [topic_groupKey htopic] at hhanded

/-- Between passes, a group has received the whole log when its cursor is at the end. -/
theorem GroupInv.received_iff (h : GroupInv o (groupKey topic groupId)) (hbus : o.bus.Inv)
    (htopic : ':' ∉ topic.toList) (hidle : o.bus.draining = none)
    (hn : o.bus.groupCursors.get (groupKey topic groupId) = some n) :
    o.Received topic groupId ↔ n = (o.bus.topics topic).length := by
  obtain ⟨-, hfirst, hhanded⟩ := h.handedOver htopic hn
  have hread : ∀ position since, (o.since (groupKey topic groupId))[position]? = some since →
      o.handed (groupKey topic groupId) position = ((o.bus.history topic).take n).drop since := by
    intro position since hs
    rw [hhanded position since hs, inHand_of_none hidle, Nat.add_zero]
  have hbounded := hbus.bounded hn
  rw [topic_groupKey htopic] at hbounded
  constructor
  · rintro ⟨hall, -⟩
    rw [hread 0 0 hfirst, List.drop_zero] at hall
    have hlen := congrArg List.length hall
    rw [List.length_take] at hlen
    unfold InMemoryEventBus.history at hlen
    omega
  · rintro rfl
    have htake : (o.bus.history topic).take (o.bus.topics topic).length = o.bus.history topic :=
      List.take_length
    refine ⟨?_, fun position since hs => ?_⟩
    · rw [hread 0 0 hfirst, htake, List.drop_zero]
    · rw [hread position since hs, htake]

/-- Once its pass has ended, a publication has reached the groups subscribed before it, provided that no
pass over another topic was under way when it was made. -/
theorem received_iff_undisturbed {before after : List (BusAction E H)} {event : E} {handler : H}
    (htopic : ':' ∉ topic.toList) (hbefore : empty.run before = some o)
    (hsub : .subscribe topic groupId handler ∈ before)
    (hafter : o.run (.publish topic event :: after) = some o')
    (hlatest : ∀ a ∈ after, a.isPublishOn topic = false) (hidle : o'.bus.draining = none) :
    o'.Received topic groupId ↔ ∀ p, o.bus.draining = some p → p.topic = topic := by
  have h : Inv o := inv_empty.run hbefore
  have hkey : (splitKey (groupKey topic groupId)).1 = topic := topic_groupKey htopic groupId
  have hpresent := get_isSome_of_subscribe inv_empty hsub hbefore
  obtain ⟨o₁, hpublish, hrest⟩ := run_cons.mp hafter
  have h₁ : Inv o₁ := h.step hpublish
  have h' : Inv o' := h₁.run hrest
  have hpresent₁ := get_isSome_step h.bus hpresent hpublish
  obtain ⟨n, hn⟩ := Option.isSome_iff_exists.mp (get_isSome_run h₁ hpresent₁ hrest)
  obtain ⟨hserved, hmissed⟩ := h₁.served_run hkey hpresent₁ hlatest hrest
  rw [(h'.group _).received_iff h'.bus htopic hidle hn]
  have hdraining : o₁.bus.draining = some (o.bus.draining.getD ⟨topic, 0, false, none⟩) := by
    obtain ⟨-, rfl⟩ := step_publish hpublish
    exact o.bus.draining_publish topic event
  constructor
  · -- a pass over another topic leaves the group behind
    intro hend p hp
    by_contra hother
    rw [hp] at hdraining
    have hlog : o₁.bus.groupCursors.get (groupKey topic groupId) ≠
        some (o₁.bus.topics topic).length := by
      obtain ⟨-, rfl⟩ := step_publish hpublish
      obtain ⟨m, hm⟩ := Option.isSome_iff_exists.mp hpresent
      have hle := h.bus.bounded hm
      rw [hkey] at hle
      rw [ObservedBus.publish, InMemoryEventBus.groupCursors_publish,
        InMemoryEventBus.topics_publish, if_pos rfl, hm, List.length_append]
      intro heq
      have hlength := Option.some.inj heq
      simp only [List.length_singleton] at hlength
      omega
    have hgone : Missed o₁.bus topic (groupKey topic groupId) := by
      refine ⟨fun q hq => ?_, hlog⟩
      obtain rfl := Option.some.inj (hdraining.symm.trans hq)
      exact hother
    exact (hmissed hgone).2 (hn.trans (congrArg some hend))
  · intro hsame
    have hstart : Served o₁.bus topic (groupKey topic groupId) := by
      refine Or.inl ⟨_, hdraining, ?_⟩
      cases hp : o.bus.draining with
      | none => rfl
      | some p => exact hsame p hp
    rcases hserved hstart with ⟨p, hp, -⟩ | hend
    · cases hidle.symm.trans hp
    · exact Option.some.inj (hn.symm.trans hend)

/-- A group of one topic and a group of another, and a publication that is being handed over. -/
def ordersUnderWay : List (BusAction Nat Nat) :=
  [.subscribe "orders" "saga" 0, .subscribe "stock-events" "node" 1, .publish "orders" 0, .go, .go]

/-- A second publication on the topic of the pass is picked up by the pass. -/
theorem received_while_under_way : ∃ o o' : ObservedBus Nat Nat,
    empty.run ordersUnderWay = some o ∧
    o.run (.publish "orders" 1 :: List.replicate 11 .go) = some o' ∧
    (o'.Received "orders" "saga" ↔ ∀ p, o.bus.draining = some p → p.topic = "orders") := by
  have hrun : ((empty.run ordersUnderWay).bind fun o =>
      (o.run (.publish "orders" 1 :: List.replicate 11 .go)).map fun o' =>
        o'.bus.draining.isSome) = some false := by
    decide +kernel
  obtain ⟨o, hbefore, hrun⟩ := Option.bind_eq_some_iff.mp hrun
  obtain ⟨o', hafter, hidle⟩ := Option.map_eq_some_iff.mp hrun
  have hsub : .subscribe "orders" "saga" 0 ∈ ordersUnderWay := by simp [ordersUnderWay]
  refine ⟨o, o', hbefore, hafter, received_iff_undisturbed (by decide) hbefore hsub hafter
    (fun a ha => ?_) (by simpa using hidle)⟩
  rw [List.eq_of_mem_replicate ha]
  rfl

/-- A publication during a pass over another topic is not delivered when all is over. -/
theorem publish_during_other_topic : ¬ ∀ (before after : List (BusAction Nat Nat))
    (topic groupId : String) (event handler : Nat) (o : ObservedBus Nat Nat),
    ':' ∉ topic.toList → empty.run (before ++ .publish topic event :: after) = some o →
    .subscribe topic groupId handler ∈ before → (∀ a ∈ after, a.isPublishOn topic = false) →
    o.bus.draining = none → o.Received topic groupId := by
  intro hall
  have hrun : (empty.run (ordersUnderWay ++ .publish "stock-events" 1 :: List.replicate 6 .go)).map
      (fun o => (o.bus.draining.isSome, o.handed (groupKey "stock-events" "node") 0,
        o.bus.history "stock-events")) = some (false, [], [1]) := by
    decide +kernel
  obtain ⟨o, hr, hseen⟩ := Option.map_eq_some_iff.mp hrun
  simp only [Prod.mk.injEq] at hseen
  obtain ⟨hidle, hhanded, hlog⟩ := hseen
  have hreceived := hall ordersUnderWay (List.replicate 6 .go) "stock-events" "node" 1 1 o
    (by decide) hr (by simp [ordersUnderWay])
    (fun a ha => by rw [List.eq_of_mem_replicate ha]; rfl) (by simpa using hidle)
  have hmissing := hreceived.1
  rw [hhanded, hlog] at hmissing
  cases hmissing

theorem pass_topic_step (h : o.bus.Inv) (hpass : ∀ p, o.bus.draining = some p → p.topic = topic)
    {a : BusAction E H} (hone : ∀ t, a.publishTopic? = some t → t = topic) (hs : o.step a = some o') :
    ∀ p, o'.bus.draining = some p → p.topic = topic := by
  intro p hp
  cases a with
  | publish t event =>
    obtain ⟨-, rfl⟩ := step_publish hs
    have hdraining : (o.publish t event).bus.draining = _ := o.bus.draining_publish t event
    obtain rfl := Option.some.inj (hdraining.symm.trans hp)
    cases hq : o.bus.draining with
    | none => exact hone t rfl
    | some q => exact hpass q hq
  | subscribe t groupId handler =>
    obtain ⟨-, rfl⟩ := step_subscribe hs
    exact hpass p hp
  | go =>
    obtain ⟨q, hq, rfl⟩ := Option.map_eq_some_iff.mp hs
    rw [(InMemoryEventBus.drain_frame h hq).2.1 p hp]
    exact hpass q hq

/-- With publications on one topic only, every pass is over that topic. -/
theorem Inv.pass_topic (h : Inv o) (hpass : ∀ p, o.bus.draining = some p → p.topic = topic)
    {actions : List (BusAction E H)}
    (hone : ∀ a ∈ actions, ∀ t, a.publishTopic? = some t → t = topic)
    (hr : o.run actions = some o') : ∀ p, o'.bus.draining = some p → p.topic = topic := by
  induction actions generalizing o with
  | nil =>
    obtain rfl := Option.some.inj hr
    exact hpass
  | cons a actions ih =>
    obtain ⟨o₁, hs, hr⟩ := run_cons.mp hr
    rw [List.forall_mem_cons] at hone
    exact ih (h.step hs) (pass_topic_step h.bus hpass hone.1 hs) hone.2 hr

/-- In every run, each group has been handed the log up to its cursor, and besides the event that a pass
is handing it just then. If all publications are on one topic, then between passes every group
subscribed before the latest publication has received the whole log. -/
theorem bus_delivers {actions : List (BusAction E H)} (hr : empty.run actions = some o) :
    (∀ topic groupId n, ':' ∉ topic.toList →
      o.bus.groupCursors.get (groupKey topic groupId) = some n → o.HandedOver topic groupId n) ∧
    ∀ topic groupId handler event before after, ':' ∉ topic.toList →
      (∀ a ∈ actions, ∀ t, a.publishTopic? = some t → t = topic) →
      actions = before ++ .publish topic event :: after →
      (∀ a ∈ after, a.isPublishOn topic = false) → .subscribe topic groupId handler ∈ before →
      o.bus.draining = none → o.Received topic groupId := by
  refine ⟨fun topic groupId n htopic hn =>
    ((inv_empty.run hr).group _).handedOver htopic hn, ?_⟩
  rintro topic groupId handler event before after htopic hone rfl hlatest hsub hidle
  obtain ⟨o₁, hbefore, hafter⟩ := run_append.mp hr
  refine (received_iff_undisturbed htopic hbefore hsub hafter hlatest hidle).mpr ?_
  refine inv_empty.pass_topic (fun p hp => by cases hp) (fun a ha => ?_) hbefore
  exact hone a (List.mem_append_left _ ha)

/-- A group that is served while a second event is published. -/
def twoOrders : List (BusAction Nat Unit) :=
  [.subscribe "orders" "saga" (), .publish "orders" 0, .go, .go, .publish "orders" 1] ++
    List.replicate 8 .go

theorem twoOrders_delivered :
    ∃ o : ObservedBus Nat Unit, empty.run twoOrders = some o ∧ o.Received "orders" "saga" := by
  have hrun : (empty.run twoOrders).map (fun o => o.bus.draining.isSome) = some false := by
    decide +kernel
  obtain ⟨o, hr, hidle⟩ := Option.map_eq_some_iff.mp hrun
  refine ⟨o, hr, (bus_delivers hr).2 "orders" "saga" () 1
    [.subscribe "orders" "saga" (), .publish "orders" 0, .go, .go] (List.replicate 8 .go)
    (by decide) (fun a ha t ht => ?_) rfl (fun a ha => ?_) (by simp) (by simpa using hidle)⟩
  · simp only [twoOrders, List.mem_append, List.mem_cons, List.not_mem_nil, or_false] at ha
    rcases ha with (rfl | rfl | rfl | rfl | rfl) | ha
    · cases ht
    · exact (Option.some.inj ht).symm
    · cases ht
    · cases ht
    · exact (Option.some.inj ht).symm
    · rw [List.eq_of_mem_replicate ha] at ht
      cases ht
  · rw [List.eq_of_mem_replicate ha]
    rfl

/-- While a handler is awaited, its group has been handed one event more than its cursor says. -/
theorem handed_before_cursor : ¬ ∀ (actions : List (BusAction Nat Unit)) (o : ObservedBus Nat Unit)
    (topic groupId : String) (n : Nat), ':' ∉ topic.toList → empty.run actions = some o →
    o.bus.groupCursors.get (groupKey topic groupId) = some n →
    o.handed (groupKey topic groupId) 0 = (o.bus.history topic).take n := by
  intro hall
  have hrun : (empty.run (twoOrders.take 4)).map (fun o =>
      (o.bus.groupCursors.get (groupKey "orders" "saga"), o.handed (groupKey "orders" "saga") 0)) =
        some (some 0, [0]) := by
    decide +kernel
  obtain ⟨o, hr, hseen⟩ := Option.map_eq_some_iff.mp hrun
  obtain ⟨hcursor, hhanded⟩ := Prod.mk.inj hseen
  have hclaimed := hall _ o "orders" "saga" 0 (by decide) hr hcursor
  rw [hhanded, List.take_zero] at hclaimed
  cases hclaimed

end ObservedBus

end SupplyChain
