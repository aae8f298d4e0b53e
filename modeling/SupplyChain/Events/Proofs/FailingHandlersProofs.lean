import SupplyChain.Events.FailingHandlers
import SupplyChain.Events.Proofs.DeliveryProofs

/-!
# Proofs: what a throwing handler does to the other groups

A throw changes nothing of a group but its own last delivery. It only ends the pass, and the events that
the pass would still have handed over wait for the next publication.
-/

namespace SupplyChain

open Collections

namespace InMemoryEventBus

variable {E H : Type} {bus : InMemoryEventBus E H} {topic key : String}

theorem awaited_eq_some : bus.awaited = some key ↔
    ∃ p d, bus.draining = some p ∧ p.delivery = some d ∧ 0 < d.called ∧ d.key = key := by
  unfold awaited
  rcases bus.draining with _ | ⟨t, pos, progress, _ | d⟩
  · simp
  · simp
  · by_cases hd : 0 < d.called
    · simp [hd]
    · simp [hd]

theorem Inv.abandon (h : Inv bus) : Inv bus.abandon where
  bounded hn := h.bounded hn
  delivery hp := by cases hp
  scan hp := by cases hp

end InMemoryEventBus

namespace ObservedBus

variable {E H : Type} {o o' o₁ o₂ : ObservedBus E H} {topic groupId key : String} {length : Nat}

/-! ## Steps and runs -/

theorem attempt_throws (hs : o.attempt (.throws key) = some o') :
    o.bus.awaited = some key ∧ { o with bus := o.bus.abandon } = o' := by
  rwa [attempt, Option.ite_none_right_eq_some, Option.some.injEq] at hs

theorem attempts_cons {a : FallibleAction E H} {actions : List (FallibleAction E H)} :
    o.attempts (a :: actions) = some o' ↔ ∃ o₁, o.attempt a = some o₁ ∧ o₁.attempts actions = some o' := by
  rw [attempts, List.foldlM_cons]
  exact Option.bind_eq_some_iff

theorem attempts_append {before after : List (FallibleAction E H)} :
    o.attempts (before ++ after) = some o' ↔
      ∃ o₁, o.attempts before = some o₁ ∧ o₁.attempts after = some o' := by
  rw [attempts, List.foldlM_append]
  exact Option.bind_eq_some_iff

theorem PassInv.step (h : PassInv o) {a : BusAction E H} (hs : o.step a = some o') : PassInv o' := by
  cases a with
  | publish topic event =>
    obtain ⟨hidle, rfl⟩ := step_publish hs
    exact h.publish hidle topic event
  | subscribe topic groupId handler =>
    obtain ⟨hidle, rfl⟩ := step_subscribe hs
    exact h.subscribe hidle
  | go =>
    obtain ⟨p, hp, rfl⟩ := Option.map_eq_some_iff.mp hs
    exact h.drain hp

theorem GroupInv.step (h : GroupInv o key) (hpass : PassInv o) {a : BusAction E H}
    (hs : o.step a = some o') : GroupInv o' key := by
  cases a with
  | publish topic event =>
    obtain ⟨hidle, rfl⟩ := step_publish hs
    exact h.publish hpass.bus hidle topic event
  | subscribe topic groupId handler =>
    obtain ⟨-, rfl⟩ := step_subscribe hs
    exact h.subscribe hpass
  | go =>
    obtain ⟨p, hp, rfl⟩ := Option.map_eq_some_iff.mp hs
    exact h.drain hpass.bus hp

theorem PassInv.attempt (h : PassInv o) {a : FallibleAction E H} (hs : o.attempt a = some o') :
    PassInv o' := by
  cases a with
  | act a => exact h.step hs
  | throws key =>
    obtain ⟨-, rfl⟩ := attempt_throws hs
    exact ⟨h.bus.abandon, fun hp => by cases hp⟩

/-- Only a throw of its own handlers comes between a group and its cursor. -/
theorem GroupInv.attempt (h : GroupInv o key) (hpass : PassInv o) {a : FallibleAction E H}
    (ha : a ≠ .throws key) (hs : o.attempt a = some o') : GroupInv o' key := by
  cases a with
  | act a => exact h.step hpass hs
  | throws thrower =>
    obtain ⟨hawaited, rfl⟩ := attempt_throws hs
    obtain ⟨p, d, hp, hd, -, rfl⟩ := InMemoryEventBus.awaited_eq_some.mp hawaited
    have hk : d.key ≠ key := by
      rintro rfl
      exact ha rfl
    refine h.quiet rfl rfl rfl rfl (fun _ => rfl) fun position => ?_
    rw [inHand_of_delivery hp hd, inHand_of_none rfl, if_neg fun hc => hk hc.1]

/-! ## The group before it subscribes -/

/-- What is known of the bus whoever has thrown. -/
structure FallibleInv (o : ObservedBus E H) : Prop where
  pass : PassInv o
  absent : ∀ {key}, o.bus.groupCursors.get key = none → GroupInv o key

theorem fallibleInv_empty : FallibleInv (empty : ObservedBus E H) :=
  ⟨inv_empty.pass, fun _ => inv_empty.group _⟩

theorem get_isSome_attempt (h : PassInv o) {a : FallibleAction E H} (hs : o.attempt a = some o')
    (hpresent : (o.bus.groupCursors.get key).isSome = true) :
    (o'.bus.groupCursors.get key).isSome = true := by
  cases a with
  | act a => exact get_isSome_step h.bus hpresent hs
  | throws thrower =>
    obtain ⟨-, rfl⟩ := attempt_throws hs
    exact hpresent

theorem FallibleInv.attempt (h : FallibleInv o) {a : FallibleAction E H}
    (hs : o.attempt a = some o') : FallibleInv o' := by
  refine ⟨h.pass.attempt hs, fun {key} hnone => ?_⟩
  have hbefore : o.bus.groupCursors.get key = none := by
    cases hg : o.bus.groupCursors.get key with
    | none => rfl
    | some n =>
      have hpresent : (o'.bus.groupCursors.get key).isSome = true :=
        get_isSome_attempt h.pass hs (by rw [hg]; rfl)
      rw [hnone] at hpresent
      cases hpresent
  refine (h.absent hbefore).attempt h.pass ?_ hs
  -- the group that is being served has a cursor
  rintro rfl
  obtain ⟨hawaited, -⟩ := attempt_throws hs
  obtain ⟨p, d, hp, hd, -, rfl⟩ := InMemoryEventBus.awaited_eq_some.mp hawaited
  obtain ⟨hcursor, -⟩ := h.pass.bus.delivery hp hd
  cases hcursor.symm.trans hbefore

theorem FallibleInv.attempts (h : FallibleInv o) {actions : List (FallibleAction E H)}
    (hr : o.attempts actions = some o') : FallibleInv o' := by
  induction actions generalizing o with
  | nil =>
    obtain rfl := Option.some.inj hr
    exact h
  | cons a actions ih =>
    obtain ⟨o₁, hs, hr⟩ := attempts_cons.mp hr
    exact ih (h.attempt hs) hr

/-! ## The group after it has subscribed -/

/-- With publications on one topic only, every pass is over that topic. -/
theorem pass_topic_attempt (h : PassInv o) (hpass : ∀ p, o.bus.draining = some p → p.topic = topic)
    {a : FallibleAction E H} (hone : ∀ t, a.publishTopic? = some t → t = topic)
    (hs : o.attempt a = some o') : ∀ p, o'.bus.draining = some p → p.topic = topic := by
  cases a with
  | throws thrower =>
    obtain ⟨-, rfl⟩ := attempt_throws hs
    intro p hp
    cases hp
  | act a => exact pass_topic_step h.bus hpass hone hs

theorem pass_topic_attempts (h : FallibleInv o)
    (hpass : ∀ p, o.bus.draining = some p → p.topic = topic) {actions : List (FallibleAction E H)}
    (hone : ∀ a ∈ actions, ∀ t, a.publishTopic? = some t → t = topic)
    (hr : o.attempts actions = some o') : ∀ p, o'.bus.draining = some p → p.topic = topic := by
  induction actions generalizing o with
  | nil =>
    obtain rfl := Option.some.inj hr
    exact hpass
  | cons a actions ih =>
    obtain ⟨o₁, hs, hr⟩ := attempts_cons.mp hr
    rw [List.forall_mem_cons] at hone
    exact ih (h.attempt hs) (pass_topic_attempt h.pass hpass hone.1 hs) hone.2 hr

/-- What is known of a group of the topic that has never thrown. -/
structure Following (o : ObservedBus E H) (topic groupId : String) : Prop where
  pass : PassInv o
  group : GroupInv o (groupKey topic groupId)
  pass_topic : ∀ p, o.bus.draining = some p → p.topic = topic
  present : (o.bus.groupCursors.get (groupKey topic groupId)).isSome = true

theorem Following.attempt (h : Following o topic groupId) {a : FallibleAction E H}
    (hone : ∀ t, a.publishTopic? = some t → t = topic) (hown : a ≠ .throws (groupKey topic groupId))
    (hs : o.attempt a = some o') : Following o' topic groupId where
  pass := h.pass.attempt hs
  group := h.group.attempt h.pass hown hs
  pass_topic := pass_topic_attempt h.pass h.pass_topic hone hs
  present := get_isSome_attempt h.pass hs h.present

theorem Following.attempts (h : Following o topic groupId) {actions : List (FallibleAction E H)}
    (hone : ∀ a ∈ actions, ∀ t, a.publishTopic? = some t → t = topic)
    (hown : .throws (groupKey topic groupId) ∉ actions) (hr : o.attempts actions = some o') :
    Following o' topic groupId := by
  induction actions generalizing o with
  | nil =>
    obtain rfl := Option.some.inj hr
    exact h
  | cons a actions ih =>
    obtain ⟨o₁, hs, hr⟩ := attempts_cons.mp hr
    rw [List.forall_mem_cons] at hone
    rw [List.mem_cons, not_or] at hown
    exact ih (h.attempt hone.1 (Ne.symm hown.1) hs) hone.2 hown.2 hr

/-- Between passes, a group is up to date if nothing waits for it. -/
theorem Following.upToDate_iff (h : Following o topic groupId) (htopic : ':' ∉ topic.toList)
    (hidle : o.bus.draining = none) :
    o.UpToDate topic groupId length ↔ ¬ o.Waits topic groupId length := by
  obtain ⟨n, hn⟩ := Option.isSome_iff_exists.mp h.present
  have hreceived := h.group.received_iff h.pass.bus htopic hidle hn
  have hbounded := h.pass.bus.bounded hn
  rw [topic_groupKey htopic] at hbounded
  unfold UpToDate Waits
  rw [hreceived, hn]
  unfold InMemoryEventBus.history
  constructor
  · rintro hall ⟨hlength, m, hm, hlt⟩
    obtain rfl := Option.some.inj hm
    have := hall hlength
    omega
  · intro hnot hlength
    by_contra hne
    exact hnot ⟨hlength, n, rfl, by omega⟩

/-- A pass that ends by itself leaves nothing waiting, and a throw leaves what was waiting. -/
theorem Following.waits_attempt (h : Following o topic groupId) (htopic : ':' ∉ topic.toList)
    (hwaits : o.bus.draining = none → ¬ o.Waits topic groupId length) {a : FallibleAction E H}
    (hthrow : ∀ key, a = .throws key → ¬ o.Waits topic groupId length)
    (hs : o.attempt a = some o') (hidle : o'.bus.draining = none) :
    ¬ o'.Waits topic groupId length := by
  cases a with
  | throws key =>
    obtain ⟨-, rfl⟩ := attempt_throws hs
    exact hthrow key rfl
  | act a =>
    cases a with
    | publish t event =>
      obtain ⟨-, rfl⟩ := step_publish hs
      rw [ObservedBus.publish, InMemoryEventBus.draining_publish] at hidle
      cases hidle
    | subscribe t groupId' handler =>
      obtain ⟨-, rfl⟩ := step_subscribe hs
      rintro ⟨hlength, n, hn, hlt⟩
      rw [ObservedBus.subscribe, InMemoryEventBus.get_isSome_subscribe handler h.present] at hn
      exact hwaits hidle ⟨hlength, n, hn, hlt⟩
    | go =>
      obtain ⟨p, hp, rfl⟩ := Option.map_eq_some_iff.mp hs
      have hserved : o.bus.Served topic (groupKey topic groupId) := Or.inl ⟨p, hp, h.pass_topic p hp⟩
      rcases hserved.drain h.pass.bus (topic_groupKey htopic groupId) h.present hp with
        ⟨q, hq, -⟩ | hend
      · cases hidle.symm.trans hq
      · rintro ⟨-, n, hn, hlt⟩
        obtain rfl := Option.some.inj (hend.symm.trans hn)
        exact Nat.lt_irrefl _ hlt

theorem Following.waits_attempts (h : Following o topic groupId) (htopic : ':' ∉ topic.toList)
    (hwaits : o.bus.draining = none → ¬ o.Waits topic groupId length)
    {actions : List (FallibleAction E H)}
    (hone : ∀ a ∈ actions, ∀ t, a.publishTopic? = some t → t = topic)
    (hown : .throws (groupKey topic groupId) ∉ actions)
    (hthrow : ∀ seen key rest o₁, actions = seen ++ .throws key :: rest → o.attempts seen = some o₁ →
      o₁.bus.awaited = some key → ¬ o₁.Waits topic groupId length)
    (hr : o.attempts actions = some o') (hidle : o'.bus.draining = none) :
    ¬ o'.Waits topic groupId length := by
  induction actions generalizing o with
  | nil =>
    obtain rfl := Option.some.inj hr
    exact hwaits hidle
  | cons a actions ih =>
    obtain ⟨o₁, hs, hr⟩ := attempts_cons.mp hr
    rw [List.forall_mem_cons] at hone
    rw [List.mem_cons, not_or] at hown
    have hfirst : ∀ key, a = .throws key → ¬ o.Waits topic groupId length := by
      rintro key rfl
      exact hthrow [] key actions o rfl rfl (attempt_throws hs).1
    refine ih (h.attempt hone.1 (Ne.symm hown.1) hs) (h.waits_attempt htopic hwaits hfirst hs) hone.2
      hown.2 ?_ hr
    intro seen key rest o₂ hsplit hseen hawaited
    exact hthrow (a :: seen) key rest o₂ (by rw [hsplit, List.cons_append])
      (attempts_cons.mpr ⟨o₁, hs, hseen⟩) hawaited

/-- A group whose own handlers do not throw is up to date at every moment between passes, exactly if no
handler of another group throws while something published since it subscribed is waiting for it. -/
theorem unharmed_iff (topic groupId : String) (handler : H) (before after : List (FallibleAction E H))
    (htopic : ':' ∉ topic.toList) (hbefore : empty.attempts before = some o)
    (hnew : o.bus.groupCursors.get (groupKey topic groupId) = none)
    (hone : ∀ a ∈ before ++ after, ∀ t, a.publishTopic? = some t → t = topic)
    (hown : .throws (groupKey topic groupId) ∉ after) :
    let start := FallibleAction.act (.subscribe topic groupId handler)
    let length := (o.bus.history topic).length
    (∀ seen rest o', after = seen ++ rest → o.attempts (start :: seen) = some o' →
        o'.bus.draining = none → o'.UpToDate topic groupId length) ↔
      ∀ seen key rest o', after = seen ++ .throws key :: rest → o.attempts (start :: seen) = some o' →
        o'.bus.awaited = some key → ¬ o'.Waits topic groupId length := by
  intro start length
  have hinv := fallibleInv_empty.attempts hbefore
  have hpass : ∀ p, o.bus.draining = some p → p.topic = topic := by
    refine pass_topic_attempts fallibleInv_empty (fun p hp => by cases hp) (fun a ha => ?_) hbefore
    exact hone a (List.mem_append_left _ ha)
  have hsubscribed : ∀ {o₁}, o.attempt start = some o₁ →
      Following o₁ topic groupId ∧ ¬ o₁.Waits topic groupId length := by
    intro o₁ hs
    have hpassInv := hinv.pass.attempt hs
    have hgroup := (hinv.absent hnew).attempt hinv.pass (a := start) (by simp [start]) hs
    have htopics := pass_topic_attempt hinv.pass hpass (a := start) (by rintro t ⟨⟩) hs
    obtain ⟨-, rfl⟩ := step_subscribe hs
    refine ⟨⟨hpassInv, hgroup, htopics, ?_⟩, ?_⟩
    · rw [get_subscribe, if_pos rfl]
      rfl
    · rintro ⟨hlt, -⟩
      exact Nat.lt_irrefl _ hlt
  have hseenOne : ∀ {seen rest}, after = seen ++ rest →
      (∀ a ∈ seen, ∀ t, a.publishTopic? = some t → t = topic) ∧
        .throws (groupKey topic groupId) ∉ seen := by
    rintro seen rest rfl
    refine ⟨fun a ha => hone a ?_, fun hmem => hown (List.mem_append_left _ hmem)⟩
    exact List.mem_append_right _ (List.mem_append_left _ ha)
  constructor
  · -- right after a throw no pass is in progress
    intro hall seen key rest o' hsplit hseen hawaited
    obtain ⟨o₁, hs, hrest⟩ := attempts_cons.mp hseen
    obtain ⟨hseenTopic, hseenOwn⟩ := hseenOne hsplit
    have hfollowing := (hsubscribed hs).1.attempts hseenTopic hseenOwn hrest
    have hthrow : o'.attempt (.throws key) = some { o' with bus := o'.bus.abandon } := if_pos hawaited
    have hother : FallibleAction.throws (E := E) (H := H) key ≠ .throws (groupKey topic groupId) := by
      rintro heq
      exact hown (by simp [hsplit, ← heq])
    have hafter := hfollowing.attempt (by rintro t ⟨⟩) hother hthrow
    refine (hafter.upToDate_iff htopic rfl).mp (hall (seen ++ [.throws key]) rest _ ?_ ?_ rfl)
    · rw [hsplit, List.append_assoc, List.singleton_append]
    · rw [← List.cons_append, attempts_append]
      exact ⟨o', hseen, attempts_cons.mpr ⟨_, hthrow, rfl⟩⟩
  · intro hthrow seen rest o' hsplit hseen hidle
    obtain ⟨o₁, hs, hrest⟩ := attempts_cons.mp hseen
    obtain ⟨hseenTopic, hseenOwn⟩ := hseenOne hsplit
    obtain ⟨hfollowing, hwaits⟩ := hsubscribed hs
    have hfollowing' := hfollowing.attempts hseenTopic hseenOwn hrest
    refine (hfollowing'.upToDate_iff htopic hidle).mpr
      (hfollowing.waits_attempts htopic (fun _ => hwaits) hseenTopic hseenOwn ?_ hrest hidle)
    intro seen' key rest' o₂ hsplit' hseen' hawaited
    refine hthrow seen' key (rest' ++ rest) o₂ ?_ (attempts_cons.mpr ⟨o₁, hs, hseen'⟩) hawaited
    rw [hsplit, hsplit', List.append_assoc, List.cons_append]

/-! ## Two runs in which the hub throws -/

theorem eq_of_first_throw {init seen rest : List (FallibleAction E H)} {thrower : String}
    (hinit : ∀ k, .throws k ∉ init)
    (h : init ++ [.throws thrower] = seen ++ .throws key :: rest) : seen = init := by
  induction init generalizing seen with
  | nil =>
    cases seen with
    | nil => rfl
    | cons a seen =>
      have hlen := congrArg List.length h
      simp at hlen
  | cons a init ih =>
    cases seen with
    | nil =>
      obtain ⟨rfl, -⟩ := List.cons.inj h
      exact absurd List.mem_cons_self (hinit key)
    | cons b seen =>
      obtain ⟨rfl, htail⟩ := List.cons.inj h
      rw [ih (fun k hk => hinit k (List.mem_cons_of_mem _ hk)) htail]

/-- The saga runner, which was subscribed first, has received the order, and the hub is being called. -/
def untilHub : List (FallibleAction Nat Nat) :=
  [.act (.subscribe "orders" "sse-hub" 1), .act (.publish "orders" 0)] ++ List.replicate 5 (.act .go)

/-- The same, with a second order that was published while the saga runner was awaited. -/
def twoUntilHub : List (FallibleAction Nat Nat) :=
  [.act (.subscribe "orders" "sse-hub" 1), .act (.publish "orders" 0), .act .go, .act .go,
    .act (.publish "orders" 1)] ++ List.replicate 3 (.act .go)

theorem hub_throws_harmless : ∃ o' : ObservedBus Nat Nat,
    empty.attempts (.act (.subscribe "orders" "saga-runner" 0) ::
      (untilHub ++ [.throws (groupKey "orders" "sse-hub")])) = some o' ∧
    o'.Received "orders" "saga-runner" := by
  have hrun : (empty.attempts (.act (.subscribe "orders" "saga-runner" 0) ::
      (untilHub ++ [.throws (groupKey "orders" "sse-hub")]))).map
        (fun o => (o.bus.draining.isSome, (o.bus.history "orders").length)) = some (false, 1) := by
    decide +kernel
  have huntil : (empty.attempts (.act (.subscribe "orders" "saga-runner" 0) :: untilHub)).map
      (fun o => (o.bus.groupCursors.get (groupKey "orders" "saga-runner"),
        (o.bus.history "orders").length)) = some (some 1, 1) := by
    decide +kernel
  obtain ⟨o', hr, hseen⟩ := Option.map_eq_some_iff.mp hrun
  obtain ⟨hidle, hlength⟩ := Prod.mk.inj hseen
  have hiff := unharmed_iff "orders" "saga-runner" (0 : Nat) []
    (untilHub ++ [.throws (groupKey "orders" "sse-hub")]) (by decide) rfl rfl ?_ ?_
  · refine ⟨o', hr, hiff.mpr ?_ _ [] o' (by simp) hr (by simpa using hidle) ?_⟩
    · intro seen key rest o₁ hsplit hseen _
      obtain rfl := eq_of_first_throw (by simp [untilHub]) hsplit
      rw [hseen, Option.map_some] at huntil
      obtain ⟨hcursor, hlog⟩ := Prod.mk.inj (Option.some.inj huntil)
      rintro ⟨-, n, hn, hlt⟩
      obtain rfl := Option.some.inj (hcursor.symm.trans hn)
      omega
    · rw [hlength]
      decide
  · intro a ha t ht
    simp only [untilHub, List.mem_append, List.mem_cons, List.mem_replicate, List.not_mem_nil,
      or_false, false_or] at ha
    rcases ha with (((rfl | rfl) | ⟨-, rfl⟩) | rfl)
    · cases ht
    · exact (Option.some.inj ht).symm
    · cases ht
    · cases ht
  · have hne : groupKey "orders" "saga-runner" ≠ groupKey "orders" "sse-hub" := by decide
    simp [untilHub, hne]

/-- A group that has never thrown misses the second order when the hub throws on the first. -/
theorem hub_throws_disturbs : ¬ ∀ (topic groupId : String) (handler : Nat)
    (actions : List (FallibleAction Nat Nat)) (o : ObservedBus Nat Nat), ':' ∉ topic.toList →
    (∀ a ∈ actions, ∀ t, a.publishTopic? = some t → t = topic) →
    .throws (groupKey topic groupId) ∉ actions →
    empty.attempts (.act (.subscribe topic groupId handler) :: actions) = some o →
    o.bus.draining = none → o.UpToDate topic groupId 0 := by
  intro hall
  have hrun : (empty.attempts (.act (.subscribe "orders" "saga-runner" 0) ::
      (twoUntilHub ++ [.throws (groupKey "orders" "sse-hub")]))).map
        (fun o => (o.bus.draining.isSome, o.handed (groupKey "orders" "saga-runner") 0,
          o.bus.history "orders")) = some (false, [0], [0, 1]) := by
    decide +kernel
  obtain ⟨o, hr, hseen⟩ := Option.map_eq_some_iff.mp hrun
  simp only [Prod.mk.injEq] at hseen
  obtain ⟨hidle, hhanded, hlog⟩ := hseen
  have hup := hall "orders" "saga-runner" 0 _ o (by decide) ?_ ?_ hr (by simpa using hidle)
  · have hreceived := (hup (by rw [hlog]; decide)).1
    rw [hhanded, hlog] at hreceived
    cases hreceived
  · intro a ha t ht
    simp only [twoUntilHub, List.mem_append, List.mem_cons, List.mem_replicate, List.not_mem_nil,
      or_false] at ha
    rcases ha with (((rfl | rfl | rfl | rfl | rfl) | ⟨-, rfl⟩) | rfl)
    · cases ht
    · exact (Option.some.inj ht).symm
    · cases ht
    · cases ht
    · exact (Option.some.inj ht).symm
    · cases ht
    · cases ht
  · have hne : groupKey "orders" "saga-runner" ≠ groupKey "orders" "sse-hub" := by decide
    simp [twoUntilHub, hne]

end ObservedBus

end SupplyChain
