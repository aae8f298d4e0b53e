import SupplyChain.Collections.Proofs.InsertionMapProofs
import SupplyChain.Events.EventBus

/-!
# Proofs: what the bus hands to its groups

Each handler of a group reads the log of its topic from the cursor at which it was subscribed. The group's
cursor says how far, up to one event that a pass may be handing over.
-/

namespace SupplyChain

open Collections

/-! ## Keys -/

theorem topic_groupKey {topic : String} (h : ':' ∉ topic.toList) (groupId : String) :
    (splitKey (groupKey topic groupId)).1 = topic := by
  have hkey : (groupKey topic groupId).toList = topic.toList ++ ':' :: groupId.toList := by
    simp [groupKey, String.toList_append]
  have hne : ∀ c ∈ topic.toList, decide (c ≠ ':') = true := by
    intro c hc
    rw [decide_eq_true_eq]
    rintro rfl
    exact h hc
  unfold splitKey
  simp only [hkey]
  rw [if_pos (by simp), List.takeWhile_append_of_pos hne]
  simp

namespace InMemoryEventBus

variable {E H : Type} {bus : InMemoryEventBus E H} {topic groupId key : String}

/-! ## What publish and subscribe change -/

theorem topics_publish (event : E) (t : String) : (bus.publish topic event).topics t =
    if t = topic then bus.topics topic ++ [event] else bus.topics t := by
  unfold publish
  cases bus.draining <;> rfl

theorem groupCursors_publish (bus : InMemoryEventBus E H) (topic : String) (event : E) :
    (bus.publish topic event).groupCursors = bus.groupCursors := by
  unfold publish
  cases bus.draining <;> rfl

theorem groupHandlers_publish (bus : InMemoryEventBus E H) (topic : String) (event : E) :
    (bus.publish topic event).groupHandlers = bus.groupHandlers := by
  unfold publish
  cases bus.draining <;> rfl

theorem draining_publish (bus : InMemoryEventBus E H) (topic : String) (event : E) :
    (bus.publish topic event).draining =
    some (bus.draining.getD ⟨topic, 0, false, none⟩) := by
  unfold publish
  cases h : bus.draining with
  | none => rfl
  | some p => rfl

theorem get_subscribe (handler : H) : (bus.subscribe topic groupId handler).groupCursors.get key =
    if key = groupKey topic groupId then some ((bus.groupCursors.get key).getD 0)
    else bus.groupCursors.get key := by
  unfold subscribe
  cases h : bus.groupCursors.get (groupKey topic groupId) with
  | none =>
    by_cases hk : key = groupKey topic groupId
    · subst hk
      simp [InsertionMap.get_set, h]
    · simp [InsertionMap.get_set, h, hk]
  | some n =>
    by_cases hk : key = groupKey topic groupId
    · subst hk
      simp [h]
    · simp [h, hk]

/-! ## The steps of a pass -/

/-- What one step of a pass can do. -/
inductive DrainStep (bus : InMemoryEventBus E H) (p : Pass E) :
    InMemoryEventBus E H × Option (HandlerCall E H) → Prop where
  | call (d : Delivery E) (h : H) (hd : p.delivery = some d)
      (hh : (bus.groupHandlers d.key)[d.called]? = some h) :
      DrainStep bus p ({ bus with
        draining := some { p with delivery := some { d with called := d.called + 1 } } },
        some ⟨d.key, d.called, h, d.cursor, d.event⟩)
  | handedOut (d : Delivery E) (hd : p.delivery = some d)
      (hh : (bus.groupHandlers d.key)[d.called]? = none) :
      DrainStep bus p ({ bus with
        groupCursors := bus.groupCursors.set d.key (d.cursor + 1)
        draining := some { p with pos := p.pos + 1, madeProgress := true, delivery := none } }, none)
  | round (hd : p.delivery = none) (he : bus.groupCursors.entries[p.pos]? = none)
      (hm : p.madeProgress = true) :
      DrainStep bus p ({ bus with draining := some { p with pos := 0, madeProgress := false } }, none)
  | finish (hd : p.delivery = none) (he : bus.groupCursors.entries[p.pos]? = none)
      (hm : p.madeProgress = false) : DrainStep bus p ({ bus with draining := none }, none)
  | skip (key : String) (cursor : Nat) (hd : p.delivery = none)
      (he : bus.groupCursors.entries[p.pos]? = some (key, cursor))
      (hs : (splitKey key).1 = p.topic → (bus.topics p.topic).length ≤ cursor) :
      DrainStep bus p ({ bus with draining := some { p with pos := p.pos + 1 } }, none)
  | take (key : String) (cursor : Nat) (event : E) (hd : p.delivery = none)
      (he : bus.groupCursors.entries[p.pos]? = some (key, cursor)) (ht : (splitKey key).1 = p.topic)
      (hv : (bus.topics p.topic)[cursor]? = some event) :
      DrainStep bus p ({ bus with
        draining := some { p with delivery := some ⟨key, cursor, event, 0⟩ } }, none)

theorem drain_step (bus : InMemoryEventBus E H) (p : Pass E) : DrainStep bus p (bus.drain p) := by
  obtain ⟨topic, pos, madeProgress, delivery⟩ := p
  unfold drain
  cases delivery with
  | some d =>
    cases hh : (bus.groupHandlers d.key)[d.called]? with
    | some h =>
      simp only [hh]
      exact .call d h rfl hh
    | none =>
      simp only [hh]
      exact .handedOut d rfl hh
  | none =>
    cases he : bus.groupCursors.entries[pos]? with
    | none =>
      cases madeProgress with
      | true => exact .round rfl he rfl
      | false => exact .finish rfl he rfl
    | some e =>
      obtain ⟨key, cursor⟩ := e
      by_cases ht : (splitKey key).1 = topic
      · cases hv : (bus.topics topic)[cursor]? with
        | none =>
          simp only [ht, ne_eq, not_true_eq_false, if_false]
          rw [hv]
          exact .skip (p := ⟨topic, pos, madeProgress, none⟩) key cursor rfl he fun _ =>
            List.getElem?_eq_none_iff.mp hv
        | some event =>
          simp only [ht, ne_eq, not_true_eq_false, if_false]
          rw [hv]
          exact .take (p := ⟨topic, pos, madeProgress, none⟩) key cursor event rfl he ht hv
      · simp only [ht, ne_eq, not_false_eq_true, if_true]
        exact .skip key cursor rfl he fun h => absurd h ht

/-! ## The invariant of the bus -/

/-- What the cursors, the delivery under way and the iteration of a pass are. -/
structure Inv (bus : InMemoryEventBus E H) : Prop where
  bounded : ∀ {key n}, bus.groupCursors.get key = some n →
    n ≤ (bus.topics (splitKey key).1).length
  delivery : ∀ {p d}, bus.draining = some p → p.delivery = some d →
    bus.groupCursors.get d.key = some d.cursor ∧ (splitKey d.key).1 = p.topic ∧
      (bus.topics p.topic)[d.cursor]? = some d.event
  /-- In a round without progress, the groups behind the iteration have nothing to receive. -/
  scan : ∀ {p}, bus.draining = some p → p.delivery = none → p.madeProgress = false →
    ∀ {i key cursor}, i < p.pos → bus.groupCursors.entries[i]? = some (key, cursor) →
      (splitKey key).1 = p.topic → (bus.topics p.topic).length ≤ cursor

theorem inv_empty : Inv (empty : InMemoryEventBus E H) where
  bounded h := by cases h
  delivery h := by cases h
  scan h := by cases h

theorem length_topics_publish (event : E) (t : String) :
    (bus.topics t).length ≤ ((bus.publish topic event).topics t).length := by
  rw [topics_publish]
  split
  · rename_i ht
    subst ht
    simp
  · exact Nat.le_refl _

theorem getElem?_topics_publish {t : String} {i : Nat} {e : E} (event : E)
    (h : (bus.topics t)[i]? = some e) : ((bus.publish topic event).topics t)[i]? = some e := by
  rw [topics_publish]
  split
  · rename_i ht
    subst ht
    obtain ⟨hi, -⟩ := List.getElem?_eq_some_iff.mp h
    rwa [List.getElem?_append_left hi]
  · exact h

/-- While others act, a pass is at a handler. -/
theorem delivery_of_idle (h : bus.idle = true) {p : Pass E} (hp : bus.draining = some p) :
    ∃ d, p.delivery = some d ∧ 0 < d.called := by
  rw [idle, hp] at h
  cases hd : p.delivery with
  | none => simp [Pass.suspended, hd] at h
  | some d => exact ⟨d, rfl, by simpa [Pass.suspended, hd] using h⟩

theorem Inv.publish (h : Inv bus) (hidle : bus.idle = true) (event : E) :
    Inv (bus.publish topic event) where
  bounded {key n} hn := by
    rw [groupCursors_publish] at hn
    exact Nat.le_trans (h.bounded hn) (length_topics_publish event _)
  delivery {p d} hp hd := by
    rw [groupCursors_publish]
    rw [draining_publish] at hp
    cases hq : bus.draining with
    | none =>
      rw [hq] at hp
      obtain rfl := Option.some.inj hp
      cases hd
    | some q =>
      rw [hq] at hp
      obtain rfl := Option.some.inj hp
      obtain ⟨hcursor, htopic, hevent⟩ := h.delivery hq hd
      exact ⟨hcursor, htopic, getElem?_topics_publish event hevent⟩
  scan {p} hp hd hm i key cursor hi he ht := by
    rw [draining_publish] at hp
    cases hq : bus.draining with
    | none =>
      rw [hq] at hp
      obtain rfl := Option.some.inj hp
      exact absurd hi (Nat.not_lt_zero i)
    | some q =>
      rw [hq] at hp
      obtain rfl := Option.some.inj hp
      obtain ⟨d, hd', -⟩ := delivery_of_idle hidle hq
      rw [Option.getD_some, hd'] at hd
      cases hd

theorem Inv.subscribe (h : Inv bus) (hidle : bus.idle = true) (handler : H) :
    Inv (bus.subscribe topic groupId handler) where
  bounded {key n} hn := by
    rw [get_subscribe] at hn
    split at hn
    · obtain rfl := Option.some.inj hn
      cases hg : bus.groupCursors.get key with
      | none => exact Nat.zero_le _
      | some m => exact h.bounded hg
    · exact h.bounded hn
  delivery {p d} hp hd := by
    obtain ⟨hcursor, htopic, hevent⟩ := h.delivery hp hd
    refine ⟨?_, htopic, hevent⟩
    rw [get_subscribe, hcursor]
    split <;> rfl
  scan {p} hp hd := by
    obtain ⟨d, hd', -⟩ := delivery_of_idle hidle hp
    rw [hd'] at hd
    cases hd

theorem Inv.drain (h : Inv bus) {p : Pass E} (hp : bus.draining = some p) :
    Inv (bus.drain p).1 := by
  generalize hout : bus.drain p = out
  have hstep : DrainStep bus p out := hout ▸ drain_step bus p
  cases hstep with
  | call d handler hd hh =>
    obtain ⟨hcursor, htopic, hevent⟩ := h.delivery hp hd
    refine ⟨h.bounded, ?_, ?_⟩
    · intro q e hq he
      obtain rfl := Option.some.inj hq
      obtain rfl := Option.some.inj he
      exact ⟨hcursor, htopic, hevent⟩
    · intro q hq he
      obtain rfl := Option.some.inj hq
      cases he
  | handedOut d hd hh =>
    obtain ⟨hcursor, htopic, hevent⟩ := h.delivery hp hd
    obtain ⟨hlt, -⟩ := List.getElem?_eq_some_iff.mp hevent
    refine ⟨?_, ?_, ?_⟩
    · intro key n hn
      rw [InsertionMap.get_set] at hn
      split at hn
      · rename_i hkey
        obtain rfl := Option.some.inj hn
        rw [hkey, htopic]
        exact hlt
      · exact h.bounded hn
    · intro q e hq he
      obtain rfl := Option.some.inj hq
      cases he
    · intro q hq he hm
      obtain rfl := Option.some.inj hq
      cases hm
  | round hd he hm =>
    refine ⟨h.bounded, ?_, ?_⟩
    · intro q e hq hqe
      obtain rfl := Option.some.inj hq
      cases hd.symm.trans hqe
    · intro q hq _ _ i key cursor hi
      obtain rfl := Option.some.inj hq
      exact absurd hi (Nat.not_lt_zero i)
  | finish hd he hm =>
    refine ⟨h.bounded, ?_, ?_⟩
    · intro q e hq
      cases hq
    · intro q hq
      cases hq
  | skip key cursor hd he hs =>
    refine ⟨h.bounded, ?_, ?_⟩
    · intro q e hq hqe
      obtain rfl := Option.some.inj hq
      cases hd.symm.trans hqe
    · intro q hq _ hm i key' cursor' hi hi' ht
      obtain rfl := Option.some.inj hq
      rcases Nat.lt_succ_iff_lt_or_eq.mp hi with hlt | rfl
      · exact h.scan hp hd hm hlt hi' ht
      · obtain ⟨rfl, rfl⟩ := Prod.mk.inj (Option.some.inj (he.symm.trans hi'))
        exact hs ht
  | take key cursor event hd he ht hv =>
    refine ⟨h.bounded, ?_, ?_⟩
    · intro q e hq hqe
      obtain rfl := Option.some.inj hq
      obtain rfl := Option.some.inj hqe
      exact ⟨InsertionMap.mem_entries_iff.mp (List.mem_of_getElem? he), ht, hv⟩
    · intro q hq hqe
      obtain rfl := Option.some.inj hq
      cases hqe

/-- When a pass ends, every group of its topic has its cursor at the end of the log. -/
theorem Inv.finished (h : Inv bus) {p : Pass E} (hp : bus.draining = some p)
    (hend : (bus.drain p).1.draining = none) {n : Nat} (hn : bus.groupCursors.get key = some n)
    (ht : (splitKey key).1 = p.topic) : n = (bus.topics p.topic).length := by
  generalize hout : bus.drain p = out at hend
  have hstep : DrainStep bus p out := hout ▸ drain_step bus p
  cases hstep with
  | finish hd he hm =>
    obtain ⟨i, hi⟩ := List.getElem?_of_mem (InsertionMap.mem_entries_iff.mpr hn)
    have hlt : i < p.pos := by
      obtain ⟨hi', -⟩ := List.getElem?_eq_some_iff.mp hi
      have := List.getElem?_eq_none_iff.mp he
      omega
    have hle := h.bounded hn
    rw [ht] at hle
    exact Nat.le_antisymm hle (h.scan hp hd hm hlt hi ht)
  | _ => cases hend

end InMemoryEventBus

/-! ## What has been handed over -/

namespace ObservedBus

variable {E H : Type} {o o' : ObservedBus E H} {key : String} {position : Nat}

theorem take_succ_drop {log : List E} {n s : Nat} {e : E} (he : log[n]? = some e) (hs : s ≤ n) :
    (log.take (n + 1)).drop s = (log.take n).drop s ++ [e] := by
  obtain ⟨hn, -⟩ := List.getElem?_eq_some_iff.mp he
  have hlen : s ≤ (log.take n).length := by
    rw [List.length_take]
    omega
  rw [List.take_add_one, he, Option.toList_some, List.drop_append_of_le_length hlen]

theorem inHand_of_none (h : o.bus.draining = none) : o.inHand key position = 0 := by
  simp [inHand, h]

theorem inHand_of_round {p : Pass E} (hp : o.bus.draining = some p) (hd : p.delivery = none) :
    o.inHand key position = 0 := by
  obtain ⟨topic, pos, madeProgress, delivery⟩ := p
  obtain rfl : delivery = none := hd
  simp [inHand, hp]

theorem inHand_of_delivery {p : Pass E} {d : Delivery E} (hp : o.bus.draining = some p)
    (hd : p.delivery = some d) :
    o.inHand key position = if d.key = key ∧ position < d.called then 1 else 0 := by
  obtain ⟨topic, pos, madeProgress, delivery⟩ := p
  obtain rfl : delivery = some d := hd
  simp [inHand, hp]

/-- The cursors and what has been handed over agree. -/
structure Inv (o : ObservedBus E H) : Prop where
  bus : o.bus.Inv
  subscribed : ∀ key, (o.since key).length = (o.bus.groupHandlers key).length
  unknown : ∀ {key}, o.bus.groupCursors.get key = none → o.since key = []
  first : ∀ {key n}, o.bus.groupCursors.get key = some n → (o.since key)[0]? = some 0
  since_le : ∀ {key n}, o.bus.groupCursors.get key = some n → ∀ s ∈ o.since key, s ≤ n
  called_le : ∀ {p d}, o.bus.draining = some p → p.delivery = some d →
    d.called ≤ (o.bus.groupHandlers d.key).length
  handed : ∀ {key n position s}, o.bus.groupCursors.get key = some n →
    (o.since key)[position]? = some s → o.handed key position =
      ((o.bus.topics (splitKey key).1).take (n + o.inHand key position)).drop s
  unheard : ∀ {key position}, (o.bus.groupHandlers key).length ≤ position →
    o.handed key position = []

theorem inv_empty : Inv (empty : ObservedBus E H) where
  bus := InMemoryEventBus.inv_empty
  subscribed _ := rfl
  unknown _ := rfl
  first h := by cases h
  since_le h := by cases h
  called_le h := by cases h
  handed h := by cases h
  unheard _ := rfl

/-- What has been handed to the group `key` agrees with its cursor. -/
structure GroupInv (o : ObservedBus E H) (key : String) : Prop where
  subscribed : (o.since key).length = (o.bus.groupHandlers key).length
  unknown : o.bus.groupCursors.get key = none → o.since key = []
  first : ∀ {n}, o.bus.groupCursors.get key = some n → (o.since key)[0]? = some 0
  since_le : ∀ {n}, o.bus.groupCursors.get key = some n → ∀ s ∈ o.since key, s ≤ n
  handed : ∀ {n position s}, o.bus.groupCursors.get key = some n →
    (o.since key)[position]? = some s → o.handed key position =
      ((o.bus.topics (splitKey key).1).take (n + o.inHand key position)).drop s
  unheard : ∀ {position}, (o.bus.groupHandlers key).length ≤ position → o.handed key position = []

/-- The cursors and the pass agree with the log and with the handlers. -/
structure PassInv (o : ObservedBus E H) : Prop where
  bus : o.bus.Inv
  called_le : ∀ {p d}, o.bus.draining = some p → p.delivery = some d →
    d.called ≤ (o.bus.groupHandlers d.key).length

theorem Inv.pass (h : Inv o) : PassInv o := ⟨h.bus, h.called_le⟩

theorem Inv.group (h : Inv o) (key : String) : GroupInv o key where
  subscribed := h.subscribed key
  unknown := h.unknown
  first := h.first
  since_le := h.since_le
  handed := h.handed
  unheard := h.unheard

theorem PassInv.inv (h : PassInv o) (hg : ∀ key, GroupInv o key) : Inv o where
  bus := h.bus
  subscribed key := (hg key).subscribed
  unknown {key} hn := (hg key).unknown hn
  first {key _} hn := (hg key).first hn
  since_le {key _} hn := (hg key).since_le hn
  called_le := h.called_le
  handed {key _ _ _} hn hs := (hg key).handed hn hs
  unheard {key _} hle := (hg key).unheard hle

/-- What has been handed over, with the event in hand, lies in the log. -/
theorem inHand_le (h : o.bus.Inv) {n : Nat} (hn : o.bus.groupCursors.get key = some n)
    (position : Nat) : n + o.inHand key position ≤ (o.bus.topics (splitKey key).1).length := by
  have hbound := h.bounded hn
  cases hp : o.bus.draining with
  | none => rwa [inHand_of_none hp]
  | some p =>
    cases hd : p.delivery with
    | none => rwa [inHand_of_round hp hd]
    | some d =>
      rw [inHand_of_delivery hp hd]
      split
      · rename_i hkey
        obtain ⟨rfl, -⟩ := hkey
        obtain ⟨hcursor, htopic, hevent⟩ := h.delivery hp hd
        obtain rfl := Option.some.inj (hcursor.symm.trans hn)
        obtain ⟨hlt, -⟩ := List.getElem?_eq_some_iff.mp hevent
        rwa [htopic]
      · exact hbound

theorem inHand_publish (hidle : o.bus.idle = true) (topic : String) (event : E) :
    (o.publish topic event).inHand key position = o.inHand key position := by
  have hp' : (o.publish topic event).bus.draining = _ := o.bus.draining_publish topic event
  cases hp : o.bus.draining with
  | none =>
    rw [hp] at hp'
    rw [inHand_of_none hp, inHand_of_round hp' rfl]
  | some p =>
    rw [hp] at hp'
    obtain ⟨d, hd, -⟩ := InMemoryEventBus.delivery_of_idle hidle hp
    rw [inHand_of_delivery hp hd, inHand_of_delivery hp' hd]

theorem PassInv.publish (h : PassInv o) (hidle : o.bus.idle = true) (topic : String) (event : E) :
    PassInv (o.publish topic event) where
  bus := h.bus.publish hidle event
  called_le {p d} hp hd := by
    rw [ObservedBus.publish, InMemoryEventBus.draining_publish] at hp
    rw [ObservedBus.publish, InMemoryEventBus.groupHandlers_publish]
    cases hq : o.bus.draining with
    | none =>
      rw [hq] at hp
      obtain rfl := Option.some.inj hp
      cases hd
    | some q =>
      rw [hq] at hp
      obtain rfl := Option.some.inj hp
      exact h.called_le hq hd

theorem GroupInv.publish (h : GroupInv o key) (hbus : o.bus.Inv) (hidle : o.bus.idle = true)
    (topic : String) (event : E) : GroupInv (o.publish topic event) key := by
  have hcursors : (o.publish topic event).bus.groupCursors = _ :=
    o.bus.groupCursors_publish topic event
  have hhandlers : (o.publish topic event).bus.groupHandlers = _ :=
    o.bus.groupHandlers_publish topic event
  refine
    { subscribed := ?subscribed
      unknown := fun hn => h.unknown (hcursors ▸ hn)
      first := fun hn => h.first (hcursors ▸ hn)
      since_le := fun hn => h.since_le (hcursors ▸ hn)
      handed := fun {n position s} hn hs => ?handed
      unheard := fun hle => h.unheard (hhandlers ▸ hle) }
  case subscribed =>
    rw [hhandlers]
    exact h.subscribed
  case handed =>
    rw [hcursors] at hn
    have hle := inHand_le hbus hn position
    rw [inHand_publish hidle, ObservedBus.publish, InMemoryEventBus.topics_publish]
    refine (h.handed hn hs).trans ?_
    split
    · rename_i ht
      rw [ht] at hle ⊢
      rw [List.take_append_of_le_length hle]
    · rfl

section Subscribe

variable {topic groupId : String} {handler : H}

theorem since_subscribe : (o.subscribe topic groupId handler).since key =
    if key = groupKey topic groupId then o.since key ++ [(o.bus.groupCursors.get key).getD 0]
    else o.since key := rfl

theorem get_subscribe : (o.subscribe topic groupId handler).bus.groupCursors.get key =
    if key = groupKey topic groupId then some ((o.bus.groupCursors.get key).getD 0)
    else o.bus.groupCursors.get key :=
  InMemoryEventBus.get_subscribe handler

theorem groupHandlers_subscribe : (o.subscribe topic groupId handler).bus.groupHandlers key =
    if key = groupKey topic groupId then o.bus.groupHandlers key ++ [handler]
    else o.bus.groupHandlers key := by
  by_cases hk : key = groupKey topic groupId <;>
    simp [ObservedBus.subscribe, InMemoryEventBus.subscribe, hk]

/-- A handler that is not subscribed yet is not being called. -/
theorem PassInv.inHand_of_length_le (h : PassInv o)
    (hle : (o.bus.groupHandlers key).length ≤ position) : o.inHand key position = 0 := by
  cases hp : o.bus.draining with
  | none => exact inHand_of_none hp
  | some p =>
    cases hd : p.delivery with
    | none => exact inHand_of_round hp hd
    | some d =>
      rw [inHand_of_delivery hp hd, if_neg]
      rintro ⟨rfl, hcalled⟩
      have hcalled_le := h.called_le hp hd
      omega

theorem PassInv.subscribe (h : PassInv o) (hidle : o.bus.idle = true) :
    PassInv (o.subscribe topic groupId handler) where
  bus := h.bus.subscribe hidle handler
  called_le {p d} hp hd := by
    have hle := h.called_le hp hd
    rw [groupHandlers_subscribe]
    split
    · rw [List.length_append]
      omega
    · exact hle

theorem GroupInv.subscribe (h : GroupInv o key) (hpass : PassInv o) :
    GroupInv (o.subscribe topic groupId handler) key := by
  by_cases hk : key = groupKey topic groupId
  case neg =>
    have hsince : (o.subscribe topic groupId handler).since key = o.since key := by
      rw [since_subscribe, if_neg hk]
    have hget : (o.subscribe topic groupId handler).bus.groupCursors.get key =
        o.bus.groupCursors.get key := by
      rw [get_subscribe, if_neg hk]
    have hhandlers : (o.subscribe topic groupId handler).bus.groupHandlers key =
        o.bus.groupHandlers key := by
      rw [groupHandlers_subscribe, if_neg hk]
    exact
      { subscribed := by rw [hsince, hhandlers, h.subscribed]
        unknown := fun hn => hsince.trans (h.unknown (hget ▸ hn))
        first := fun hn => hsince ▸ h.first (hget ▸ hn)
        since_le := fun hn => hsince ▸ h.since_le (hget ▸ hn)
        handed := fun hn hs => h.handed (hget ▸ hn) (hsince ▸ hs)
        unheard := fun hle => h.unheard (hhandlers ▸ hle) }
  case pos =>
  have hsince : (o.subscribe topic groupId handler).since key =
      o.since key ++ [(o.bus.groupCursors.get key).getD 0] := by
    rw [since_subscribe, if_pos hk]
  have hget : (o.subscribe topic groupId handler).bus.groupCursors.get key =
      some ((o.bus.groupCursors.get key).getD 0) := by
    rw [get_subscribe, if_pos hk]
  have hhandlers : (o.subscribe topic groupId handler).bus.groupHandlers key =
      o.bus.groupHandlers key ++ [handler] := by
    rw [groupHandlers_subscribe, if_pos hk]
  refine
    { subscribed := by simp [hsince, hhandlers, h.subscribed]
      unknown := fun hn => ?unknown
      first := fun {n} hn => ?first
      since_le := fun {n} hn s hs => ?since_le
      handed := fun {n position s} hn hs => ?handed
      unheard := fun {position} hle => ?unheard }
  case unknown =>
    rw [hget] at hn
    cases hn
  case first =>
    rw [hsince]
    cases hg : o.bus.groupCursors.get key with
    | none => simp [h.unknown hg]
    | some m =>
      obtain ⟨hlt, -⟩ := List.getElem?_eq_some_iff.mp (h.first hg)
      rw [List.getElem?_append_left hlt]
      exact h.first hg
  case since_le =>
    rw [hsince] at hs
    rw [hget] at hn
    obtain rfl := Option.some.inj hn
    rcases List.mem_append.mp hs with hs | hs
    · cases hg : o.bus.groupCursors.get key with
      | none =>
        rw [h.unknown hg] at hs
        cases hs
      | some m => exact h.since_le hg s hs
    · exact Nat.le_of_eq (List.mem_singleton.mp hs)
  case handed =>
    rw [hget] at hn
    rw [hsince] at hs
    by_cases hpos : position < (o.since key).length
    · -- a handler that was subscribed before
      rw [List.getElem?_append_left hpos] at hs
      cases hg : o.bus.groupCursors.get key with
      | none =>
        rw [h.unknown hg] at hpos
        cases hpos
      | some m =>
        rw [hg] at hn
        obtain rfl := Option.some.inj hn
        exact h.handed hg hs
    · -- the new handler has not been called
      have hlen : (o.since key).length ≤ position := Nat.not_lt.mp hpos
      obtain ⟨hlt, hval⟩ := List.getElem?_eq_some_iff.mp hs
      rw [List.getElem_append_right hlen, List.getElem_singleton] at hval
      obtain rfl : n = s := (Option.some.inj hn).symm.trans hval
      rw [h.subscribed] at hlen
      have hunheard : (o.subscribe topic groupId handler).handed key position = [] :=
        h.unheard hlen
      have hnone : (o.subscribe topic groupId handler).inHand key position = 0 :=
        hpass.inHand_of_length_le hlen
      rw [hunheard, hnone]
      refine (List.drop_eq_nil_iff.mpr ?_).symm
      rw [List.length_take]
      exact Nat.min_le_left ..
  case unheard =>
    rw [hhandlers, List.length_append] at hle
    exact h.unheard (by omega)

end Subscribe

theorem handed_append (c : HandlerCall E H) (bus : InMemoryEventBus E H) :
    handed { o with bus, calls := o.calls ++ [c] } key position =
      o.handed key position ++ if c.key = key ∧ c.position = position then [c.event] else [] := by
  by_cases hc : c.key = key ∧ c.position = position
  · simp [handed, hc]
  · simp [handed, hc]

/-- A step that neither calls a handler of the group nor moves its cursor, with no event in hand before or
after. -/
theorem GroupInv.quiet (h : GroupInv o key) (htopics : o'.bus.topics = o.bus.topics)
    (hcursor : o'.bus.groupCursors.get key = o.bus.groupCursors.get key)
    (hhandlers : o'.bus.groupHandlers = o.bus.groupHandlers) (hsince : o'.since = o.since)
    (hhanded : ∀ position, o'.handed key position = o.handed key position)
    (hinHand : ∀ position, o'.inHand key position = o.inHand key position) : GroupInv o' key where
  subscribed := by
    rw [hsince, hhandlers]
    exact h.subscribed
  unknown hn := by
    rw [hsince]
    exact h.unknown (hcursor ▸ hn)
  first hn := by
    rw [hsince]
    exact h.first (hcursor ▸ hn)
  since_le hn := by
    rw [hsince]
    exact h.since_le (hcursor ▸ hn)
  handed hn hs := by
    rw [hhanded, hinHand, htopics]
    exact h.handed (hcursor ▸ hn) (hsince ▸ hs)
  unheard hle := by
    rw [hhanded]
    exact h.unheard (hhandlers ▸ hle)

/-- The next handler of the group is called with the event. -/
theorem GroupInv.called {d : Delivery E} (h : GroupInv o d.key) (hbus : o.bus.Inv) {p : Pass E}
    (hp : o.bus.draining = some p) (hd : p.delivery = some d) {handler : H}
    (hh : (o.bus.groupHandlers d.key)[d.called]? = some handler) {bus : InMemoryEventBus E H}
    (htopics : bus.topics = o.bus.topics) (hcursors : bus.groupCursors = o.bus.groupCursors)
    (hhandlers : bus.groupHandlers = o.bus.groupHandlers)
    (hdraining : bus.draining =
      some { p with delivery := some { d with called := d.called + 1 } }) :
    GroupInv { o with bus, calls := o.calls ++ [⟨d.key, d.called, handler, d.cursor, d.event⟩] }
      d.key := by
  obtain ⟨hcursor, htopic, hevent⟩ := hbus.delivery hp hd
  obtain ⟨hlt, -⟩ := List.getElem?_eq_some_iff.mp hh
  refine
    { subscribed := hhandlers ▸ h.subscribed
      unknown := fun hn => h.unknown (hcursors ▸ hn)
      first := fun hn => h.first (hcursors ▸ hn)
      since_le := fun hn => h.since_le (hcursors ▸ hn)
      handed := fun {n position s} hn hs => ?handed
      unheard := fun {position} hle => ?unheard }
  case handed =>
    have hn : o.bus.groupCursors.get d.key = some n := hcursors ▸ hn
    have hbefore := h.handed hn hs
    have hle := h.since_le hn s (List.mem_of_getElem? hs)
    rw [handed_append, hbefore, inHand_of_delivery hp hd,
      inHand_of_delivery (p := { p with delivery := some { d with called := d.called + 1 } })
        (d := { d with called := d.called + 1 }) hdraining rfl, htopics]
    obtain rfl := Option.some.inj (hcursor.symm.trans hn)
    rw [← htopic] at hevent
    rcases Nat.lt_trichotomy position d.called with hpos | rfl | hpos
    · rw [if_pos ⟨rfl, hpos⟩, if_neg fun hc => Nat.ne_of_gt hpos hc.2,
        if_pos ⟨rfl, Nat.lt_succ_of_lt hpos⟩, List.append_nil]
    · rw [if_neg fun hc => Nat.lt_irrefl _ hc.2, if_pos ⟨rfl, rfl⟩,
        if_pos ⟨rfl, Nat.lt_succ_self _⟩, take_succ_drop hevent hle, Nat.add_zero]
    · rw [if_neg fun hc => Nat.lt_asymm hpos hc.2, if_neg fun hc => Nat.ne_of_lt hpos hc.2,
        if_neg fun hc => Nat.not_lt.mpr (Nat.le_of_lt_succ hc.2) hpos, List.append_nil]
  case unheard =>
    rw [hhandlers] at hle
    rw [handed_append, h.unheard hle, if_neg]
    · rfl
    · rintro ⟨-, hpos⟩
      dsimp only at hpos
      omega

/-- All handlers of the group have been called, and its cursor moves past the event. -/
theorem GroupInv.handedOut {d : Delivery E} (h : GroupInv o d.key) (hbus : o.bus.Inv) {p : Pass E}
    (hp : o.bus.draining = some p) (hd : p.delivery = some d)
    (hh : (o.bus.groupHandlers d.key)[d.called]? = none) {bus : InMemoryEventBus E H}
    (htopics : bus.topics = o.bus.topics)
    (hcursors : bus.groupCursors = o.bus.groupCursors.set d.key (d.cursor + 1))
    (hhandlers : bus.groupHandlers = o.bus.groupHandlers)
    (hdraining : ∃ q, bus.draining = some q ∧ q.delivery = none) : GroupInv { o with bus } d.key := by
  obtain ⟨hcursor, htopic, hevent⟩ := hbus.delivery hp hd
  obtain ⟨q, hq, hqd⟩ := hdraining
  have hall : (o.bus.groupHandlers d.key).length ≤ d.called := List.getElem?_eq_none_iff.mp hh
  have hget : bus.groupCursors.get d.key = some (d.cursor + 1) := by
    rw [hcursors, InsertionMap.get_set, if_pos rfl]
  refine
    { subscribed := hhandlers ▸ h.subscribed
      unknown := fun hn => ?unknown
      first := fun _ => h.first hcursor
      since_le := fun {n} hn s hs => ?since_le
      handed := fun {n position s} hn hs => ?handed
      unheard := fun hle => h.unheard (hhandlers ▸ hle) }
  case unknown => cases hget.symm.trans hn
  case since_le =>
    obtain rfl := Option.some.inj (hget.symm.trans hn)
    exact Nat.le_succ_of_le (h.since_le hcursor s hs)
  case handed =>
    obtain rfl := Option.some.inj (hget.symm.trans hn)
    obtain ⟨hpos, -⟩ := List.getElem?_eq_some_iff.mp hs
    rw [h.subscribed] at hpos
    have hbefore := h.handed hcursor hs
    rw [inHand_of_delivery hp hd, if_pos ⟨rfl, Nat.lt_of_lt_of_le hpos hall⟩] at hbefore
    rw [inHand_of_round (p := q) hq hqd, htopics]
    exact hbefore

theorem PassInv.drain (h : PassInv o) {p : Pass E} (hp : o.bus.draining = some p) :
    PassInv (o.drain p) := by
  refine ⟨h.bus.drain hp, ?_⟩
  intro q e
  unfold ObservedBus.drain
  generalize hout : o.bus.drain p = out
  have hstep : o.bus.DrainStep p out := hout ▸ o.bus.drain_step p
  intro hq he
  cases hstep with
  | call d handler hd hh =>
    obtain ⟨hlt, -⟩ := List.getElem?_eq_some_iff.mp hh
    obtain rfl := Option.some.inj hq
    obtain rfl := Option.some.inj he
    exact hlt
  | handedOut d hd hh =>
    obtain rfl := Option.some.inj hq
    cases he
  | finish hd _ _ => cases hq
  | round hd _ _ | skip _ _ hd _ _ =>
    obtain rfl := Option.some.inj hq
    cases hd.symm.trans he
  | take key cursor event hd _ _ _ =>
    obtain rfl := Option.some.inj hq
    obtain rfl := Option.some.inj he
    exact Nat.zero_le _

theorem GroupInv.drain (h : GroupInv o key) (hbus : o.bus.Inv) {p : Pass E}
    (hp : o.bus.draining = some p) : GroupInv (o.drain p) key := by
  unfold ObservedBus.drain
  generalize hout : o.bus.drain p = out
  have hstep : o.bus.DrainStep p out := hout ▸ o.bus.drain_step p
  cases hstep with
  | call d handler hd hh =>
    by_cases hk : d.key = key
    · subst hk
      exact h.called hbus hp hd hh rfl rfl rfl rfl
    · refine h.quiet rfl rfl rfl rfl (fun position => ?_) fun position => ?_
      · exact (handed_append _ _).trans (by rw [if_neg fun hc => hk hc.1, List.append_nil])
      · rw [inHand_of_delivery hp hd, inHand_of_delivery rfl rfl, if_neg fun hc => hk hc.1,
          if_neg fun hc => hk hc.1]
  | handedOut d hd hh =>
    simp only [Option.toList_none, List.append_nil]
    by_cases hk : d.key = key
    · subst hk
      exact h.handedOut hbus hp hd hh rfl rfl rfl ⟨_, rfl, rfl⟩
    · refine h.quiet rfl ?_ rfl rfl (fun _ => rfl) fun position => ?_
      · exact (InsertionMap.get_set _ _ _ _).trans (if_neg fun hkey => hk hkey.symm)
      · rw [inHand_of_delivery hp hd, inHand_of_round rfl rfl, if_neg fun hc => hk hc.1]
  | round hd he hm =>
    simp only [Option.toList_none, List.append_nil]
    refine h.quiet rfl rfl rfl rfl (fun _ => rfl) fun position => ?_
    rw [inHand_of_round hp hd, inHand_of_round (p := { p with pos := 0, madeProgress := false }) rfl hd]
  | skip _ _ hd he hs =>
    simp only [Option.toList_none, List.append_nil]
    refine h.quiet rfl rfl rfl rfl (fun _ => rfl) fun position => ?_
    rw [inHand_of_round hp hd, inHand_of_round (p := { p with pos := p.pos + 1 }) rfl hd]
  | finish hd he hm =>
    simp only [Option.toList_none, List.append_nil]
    refine h.quiet rfl rfl rfl rfl (fun _ => rfl) fun position => ?_
    rw [inHand_of_round hp hd, inHand_of_none rfl]
  | take k cursor event hd he ht hv =>
    simp only [Option.toList_none, List.append_nil]
    refine h.quiet rfl rfl rfl rfl (fun _ => rfl) fun position => ?_
    rw [inHand_of_round hp hd, inHand_of_delivery rfl rfl, if_neg]
    rintro ⟨-, hlt⟩
    exact Nat.not_lt_zero _ hlt

theorem Inv.publish (h : Inv o) (hidle : o.bus.idle = true) (topic : String) (event : E) :
    Inv (o.publish topic event) :=
  (h.pass.publish hidle topic event).inv fun key => (h.group key).publish h.bus hidle topic event

theorem Inv.subscribe (h : Inv o) (hidle : o.bus.idle = true) {topic groupId : String} {handler : H} :
    Inv (o.subscribe topic groupId handler) :=
  (h.pass.subscribe hidle).inv fun key => (h.group key).subscribe h.pass

theorem Inv.drain (h : Inv o) {p : Pass E} (hp : o.bus.draining = some p) : Inv (o.drain p) :=
  (h.pass.drain hp).inv fun key => (h.group key).drain h.bus hp

/-! ## Steps and runs -/

theorem step_publish {topic : String} {event : E} (hs : o.step (.publish topic event) = some o') :
    o.bus.idle = true ∧ o.publish topic event = o' := by
  rwa [ObservedBus.step, Option.ite_none_right_eq_some, Option.some.injEq] at hs

theorem step_subscribe {topic groupId : String} {handler : H}
    (hs : o.step (.subscribe topic groupId handler) = some o') :
    o.bus.idle = true ∧ o.subscribe topic groupId handler = o' := by
  rwa [ObservedBus.step, Option.ite_none_right_eq_some, Option.some.injEq] at hs

theorem Inv.step (h : Inv o) {a : BusAction E H} (hs : o.step a = some o') : Inv o' := by
  cases a with
  | publish topic event =>
    obtain ⟨hidle, rfl⟩ := step_publish hs
    exact h.publish hidle topic event
  | subscribe topic groupId handler =>
    obtain ⟨hidle, rfl⟩ := step_subscribe hs
    exact h.subscribe hidle
  | go =>
    obtain ⟨p, hp, rfl⟩ := Option.map_eq_some_iff.mp hs
    exact h.drain hp

theorem run_cons {a : BusAction E H} {actions : List (BusAction E H)} :
    o.run (a :: actions) = some o' ↔ ∃ o₁, o.step a = some o₁ ∧ o₁.run actions = some o' := by
  rw [ObservedBus.run, List.foldlM_cons]
  exact Option.bind_eq_some_iff

theorem run_append {before after : List (BusAction E H)} :
    o.run (before ++ after) = some o' ↔
      ∃ o₁, o.run before = some o₁ ∧ o₁.run after = some o' := by
  rw [ObservedBus.run, List.foldlM_append]
  exact Option.bind_eq_some_iff

theorem Inv.run (h : Inv o) {actions : List (BusAction E H)} (hr : o.run actions = some o') :
    Inv o' := by
  induction actions generalizing o with
  | nil =>
    obtain rfl := Option.some.inj hr
    exact h
  | cons a actions ih =>
    obtain ⟨o₁, hs, hr⟩ := run_cons.mp hr
    exact ih (h.step hs) hr

end ObservedBus

end SupplyChain
