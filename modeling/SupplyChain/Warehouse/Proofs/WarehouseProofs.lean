import SupplyChain.Events.Proofs.DeliveryProofs
import SupplyChain.Events.Proofs.PassBoundProofs
import SupplyChain.Warehouse.Proofs.ReplicaProofs

/-!
# Proofs: the nodes and the bus

How far the bus has got with each node, and from it what each node has applied, in every run.
-/

namespace SupplyChain

open Async Collections

/-! ## How far the bus has got with a handler -/

namespace ObservedBus

variable {E H : Type} {o : ObservedBus E H} {key : String} {position : Nat}

/-- How many events of its log the group had received when the handler last returned, counting the event
that the handler is processing. -/
def reached (o : ObservedBus E H) (key : String) (position : Nat) : Nat :=
  (o.bus.groupCursors.get key).getD 0 + o.inHand key position

theorem reached_publish (hidle : o.bus.idle = true) (topic : String) (event : E) :
    (o.publish topic event).reached key position = o.reached key position := by
  rw [reached, inHand_publish hidle, ObservedBus.publish, InMemoryEventBus.groupCursors_publish]
  rfl

theorem reached_subscribe (topic groupId : String) (handler : H) :
    (o.subscribe topic groupId handler).reached key position = o.reached key position := by
  unfold reached
  rw [get_subscribe]
  split
  · rfl
  · rfl

theorem Inv.reached_le (h : Inv o) (key : String) (position : Nat) :
    o.reached key position ≤ (o.bus.topics (splitKey key).1).length := by
  unfold reached
  cases hn : o.bus.groupCursors.get key with
  | some n => exact ObservedBus.inHand_le h.bus hn position
  | none =>
    have hnone : o.inHand key position = 0 := by
      cases hp : o.bus.draining with
      | none => exact inHand_of_none hp
      | some p =>
        cases hd : p.delivery with
        | none => exact inHand_of_round hp hd
        | some d =>
          rw [inHand_of_delivery hp hd, if_neg]
          rintro ⟨rfl, -⟩
          cases hn.symm.trans (h.bus.delivery hp hd).1
    rw [hnone]
    exact Nat.zero_le _

theorem groupHandlers_drain (p : Pass E) : (o.drain p).bus.groupHandlers = o.bus.groupHandlers := by
  show (o.bus.drain p).1.groupHandlers = _
  generalize hout : o.bus.drain p = out
  have hstep : o.bus.DrainStep p out := hout ▸ o.bus.drain_step p
  cases hstep <;> rfl

/-- A handler is called with the event that is next for it, and got one further; no other did. -/
theorem Inv.reached_call (h : Inv o) {p : Pass E} (hp : o.bus.draining = some p)
    {c : HandlerCall E H} (hc : (o.bus.drain p).2 = some c) :
    (o.bus.groupHandlers c.key)[c.position]? = some c.handler ∧
      c.index = o.reached c.key c.position ∧
      (o.bus.topics (splitKey c.key).1)[c.index]? = some c.event ∧
      ∀ key position, (o.drain p).reached key position =
        if c.key = key ∧ c.position = position then o.reached key position + 1
        else o.reached key position := by
  unfold ObservedBus.drain
  generalize hout : o.bus.drain p = out at hc
  have hstep : o.bus.DrainStep p out := hout ▸ o.bus.drain_step p
  cases hstep with
  | call d handler hd hh =>
    obtain rfl := Option.some.inj hc
    obtain ⟨hcursor, htopic, hevent⟩ := h.bus.delivery hp hd
    refine ⟨hh, ?_, by rw [htopic]; exact hevent, fun key position => ?_⟩
    · rw [reached, hcursor, inHand_of_delivery hp hd, if_neg fun hlt => Nat.lt_irrefl _ hlt.2]
      rfl
    · unfold reached
      rw [inHand_of_delivery hp hd,
        inHand_of_delivery (p := { p with delivery := some { d with called := d.called + 1 } })
          (d := { d with called := d.called + 1 }) rfl rfl]
      dsimp only
      by_cases hkey : d.key = key
      · subst hkey
        simp only [true_and]
        by_cases hpos : d.called = position
        · subst hpos
          simp
        · by_cases hlt : position < d.called
          · simp [hpos, hlt, Nat.lt_succ_of_lt hlt]
          · have hge : ¬ position < d.called + 1 := by omega
            simp [hpos, hlt, hge]
      · simp [hkey]
  | _ => cases hc

/-- When no handler is called, the bus is as far as it was with every handler. -/
theorem Inv.reached_quiet (h : Inv o) {p : Pass E} (hp : o.bus.draining = some p)
    (hc : (o.bus.drain p).2 = none) (hlt : position < (o.bus.groupHandlers key).length) :
    (o.drain p).reached key position = o.reached key position := by
  unfold ObservedBus.drain
  generalize hout : o.bus.drain p = out at hc
  have hstep : o.bus.DrainStep p out := hout ▸ o.bus.drain_step p
  cases hstep with
  | call d handler hd hh => cases hc
  | handedOut d hd hh =>
    obtain ⟨hcursor, htopic, hevent⟩ := h.bus.delivery hp hd
    have hall := List.getElem?_eq_none_iff.mp hh
    unfold reached
    rw [inHand_of_delivery hp hd, inHand_of_round
      (p := { p with pos := p.pos + 1, madeProgress := true, delivery := none }) rfl rfl]
    dsimp only
    rw [InsertionMap.get_set]
    by_cases hkey : key = d.key
    · subst hkey
      rw [if_pos rfl, if_pos ⟨rfl, by omega⟩, hcursor]
      rfl
    · rw [if_neg hkey, if_neg fun hc => hkey hc.1.symm]
  | finish hd he hm =>
    unfold reached
    rw [inHand_of_round hp hd, inHand_of_none rfl]
  | round hd he hm =>
    unfold reached
    rw [inHand_of_round hp hd, inHand_of_round (p := { p with pos := 0, madeProgress := false }) rfl hd]
  | skip k cursor hd he hs =>
    unfold reached
    rw [inHand_of_round hp hd, inHand_of_round (p := { p with pos := p.pos + 1 }) rfl hd]
  | take k cursor event hd he ht hv =>
    unfold reached
    rw [inHand_of_round hp hd, inHand_of_delivery (p := { p with
      delivery := some ⟨k, cursor, event, 0⟩ }) rfl rfl, if_neg fun hc => Nat.not_lt_zero _ hc.2]

end ObservedBus

/-! ## The invariant of the system -/

theorem topic_key (r : Replica) : (splitKey r.key).1 = STOCK_EVENTS_TOPIC :=
  topic_groupKey (by decide) _

namespace Warehouses

variable {w w' : Warehouses}

/-- Every handler is that of a node, and each node has applied what a node can have applied when the bus
is as far as it is with its handler. -/
structure Inv (w : Warehouses) : Prop where
  bus : w.bus.Inv
  registered : ∀ {key} {position j : Nat}, (w.bus.bus.groupHandlers key)[position]? = some j →
    ∃ r : Replica, w.nodes[j]? = some r ∧ r.key = key ∧ r.position = position
  own : ∀ {j : Nat} {r : Replica}, w.nodes[j]? = some r →
    (w.bus.bus.groupHandlers r.key)[r.position]? = some j
  replica : ∀ {j : Nat} {r : Replica}, w.nodes[j]? = some r →
    r.Inv w.log (w.bus.reached r.key r.position)

theorem inv_empty : Inv empty where
  bus := ObservedBus.inv_empty
  registered h := by simp [empty, ObservedBus.empty, InMemoryEventBus.empty] at h
  own h := by simp [empty] at h
  replica h := by simp [empty] at h

/-- The node that joins. -/
def joining (w : Warehouses) (nodeId : String) : Replica where
  node := .new nodeId
  position := (w.bus.bus.groupHandlers (groupKey STOCK_EVENTS_TOPIC (WarehouseNode.groupId nodeId))).length
  joinedAt := (w.bus.bus.groupCursors.get
    (groupKey STOCK_EVENTS_TOPIC (WarehouseNode.groupId nodeId))).getD 0
  reconnectedAt := none
  applied := []
  misdelivered := false

theorem getElem?_nodes_create (w : Warehouses) (nodeId : String) {j : Nat} {r : Replica} :
    (w.create nodeId).nodes[j]? = some r ↔
      w.nodes[j]? = some r ∨ j = w.nodes.length ∧ r = w.joining nodeId := by
  have hnodes : (w.create nodeId).nodes = w.nodes ++ [w.joining nodeId] := rfl
  rw [hnodes]
  rcases Nat.lt_or_ge j w.nodes.length with hlt | hge
  · rw [List.getElem?_append_left hlt]
    exact ⟨Or.inl, fun h => h.resolve_right fun hj => Nat.ne_of_lt hlt hj.1⟩
  · rw [List.getElem?_append_right hge, List.getElem?_eq_none hge, List.getElem?_singleton]
    constructor
    · intro hr
      split at hr
      · exact Or.inr ⟨by omega, (Option.some.inj hr).symm⟩
      · cases hr
    · rintro (hr | ⟨rfl, rfl⟩)
      · cases hr
      · rw [if_pos (Nat.sub_self _)]

theorem groupHandlers_create (w : Warehouses) (nodeId key : String) :
    (w.create nodeId).bus.bus.groupHandlers key =
      if key = (w.joining nodeId).key then w.bus.bus.groupHandlers key ++ [w.nodes.length]
      else w.bus.bus.groupHandlers key :=
  ObservedBus.groupHandlers_subscribe

theorem position_joining (w : Warehouses) (nodeId : String) :
    (w.joining nodeId).position = (w.bus.bus.groupHandlers (w.joining nodeId).key).length := rfl

/-- It has applied nothing. -/
theorem joining_inv {log : List StockEvent} (nodeId : String)
    (h : (w.joining nodeId).joinedAt ≤ log.length) :
    (w.joining nodeId).Inv log (w.joining nodeId).joinedAt where
  joined_le := Nat.le_refl _
  reached_le := h
  reconnected_le hm := by cases hm
  good _ := ⟨rfl, Nat.zero_le _, fun _ => rfl⟩
  caught _ _ hfresh := by
    rcases hfresh with hzero | hsome
    · rw [hzero]
      rfl
    · cases hsome
  unread _ _ _ := rfl
  bad hbad := by cases hbad

theorem Inv.create (h : Inv w) (hidle : w.bus.bus.idle = true) (nodeId : String) :
    Inv (w.create nodeId) := by
  have hreached : ∀ k position, (w.create nodeId).bus.reached k position =
      w.bus.reached k position := fun k position => ObservedBus.reached_subscribe _ _ _
  refine
    { bus := h.bus.subscribe hidle
      registered := fun {key position j} hj => ?registered
      own := fun {j r} hr => ?own
      replica := fun {j r} hr => ?replica }
  case registered =>
    have hold : (w.bus.bus.groupHandlers key)[position]? = some j →
        ∃ r : Replica, (w.create nodeId).nodes[j]? = some r ∧ r.key = key ∧ r.position = position := by
      intro hj
      obtain ⟨r, hr, hplace⟩ := h.registered hj
      exact ⟨r, (getElem?_nodes_create w nodeId).mpr (Or.inl hr), hplace⟩
    rw [groupHandlers_create] at hj
    split at hj
    · rename_i hkey
      rcases Nat.lt_or_ge position (w.bus.bus.groupHandlers key).length with hlt | hge
      · rw [List.getElem?_append_left hlt] at hj
        exact hold hj
      · rw [List.getElem?_append_right hge, List.getElem?_singleton] at hj
        split at hj
        · refine ⟨w.joining nodeId, (getElem?_nodes_create w nodeId).mpr
            (Or.inr ⟨(Option.some.inj hj).symm, rfl⟩), hkey.symm, ?_⟩
          rw [position_joining, ← hkey]
          omega
        · cases hj
    · exact hold hj
  case own =>
    rw [groupHandlers_create]
    rcases (getElem?_nodes_create w nodeId).mp hr with hr | ⟨rfl, rfl⟩
    · have hown := h.own hr
      obtain ⟨hlt, -⟩ := List.getElem?_eq_some_iff.mp hown
      split
      · rwa [List.getElem?_append_left hlt]
      · exact hown
    · rw [if_pos rfl, position_joining, List.getElem?_concat_length]
  case replica =>
    rw [hreached]
    rcases (getElem?_nodes_create w nodeId).mp hr with hr | ⟨-, rfl⟩
    · exact h.replica hr
    · have hstart : w.bus.reached (w.joining nodeId).key (w.joining nodeId).position =
          (w.joining nodeId).joinedAt := by
        rw [ObservedBus.reached, position_joining, h.bus.pass.inHand_of_length_le (Nat.le_refl _),
          Nat.add_zero]
        rfl
      have hle := h.bus.reached_le (w.joining nodeId).key (w.joining nodeId).position
      rw [topic_key, hstart] at hle
      rw [hstart]
      exact joining_inv nodeId hle

theorem Inv.emit (h : Inv w) (hidle : w.bus.bus.idle = true) (sku : Sku) (delta : Int) :
    Inv (w.emitStockChange sku delta) := by
  have hlog : (w.emitStockChange sku delta).log = w.log ++ [⟨sku, delta⟩] := by
    show (w.bus.bus.publish STOCK_EVENTS_TOPIC ⟨sku, delta⟩).topics STOCK_EVENTS_TOPIC = _
    rw [InMemoryEventBus.topics_publish, if_pos rfl]
    rfl
  have hhandlers : (w.emitStockChange sku delta).bus.bus.groupHandlers = w.bus.bus.groupHandlers :=
    w.bus.bus.groupHandlers_publish STOCK_EVENTS_TOPIC ⟨sku, delta⟩
  have hreached : ∀ key position, (w.emitStockChange sku delta).bus.reached key position =
      w.bus.reached key position := fun _ _ => ObservedBus.reached_publish hidle _ _
  refine
    { bus := h.bus.publish hidle _ _
      registered := fun {key position j} hj => ?registered
      own := fun {j r} hr => ?own
      replica := fun {j r} hr => ?replica }
  case registered =>
    rw [hhandlers] at hj
    exact h.registered hj
  case own =>
    rw [hhandlers]
    exact h.own hr
  case replica =>
    rw [hlog, hreached]
    exact (h.replica hr).publish _

/-- A change of one node that keeps its place on the bus. -/
theorem Inv.modify (h : Inv w) {node : Nat} {f : Replica → Replica}
    (hkey : ∀ r, (f r).key = r.key) (hposition : ∀ r, (f r).position = r.position)
    (hf : ∀ r, w.nodes[node]? = some r →
      (f r).Inv w.log (w.bus.reached r.key r.position)) :
    Inv { w with nodes := w.nodes.modify node f } := by
  have hsplit : ∀ {j : Nat} {r' : Replica}, (w.nodes.modify node f)[j]? = some r' →
      ∃ r : Replica, w.nodes[j]? = some r ∧ r'.key = r.key ∧ r'.position = r.position ∧
        r'.Inv w.log (w.bus.reached r.key r.position) := by
    intro j r' hr
    rw [List.getElem?_modify] at hr
    obtain ⟨r, hold, rfl⟩ := Option.map_eq_some_iff.mp hr
    by_cases hj : node = j
    · subst hj
      rw [if_pos rfl]
      exact ⟨r, hold, hkey r, hposition r, hf r hold⟩
    · rw [if_neg hj]
      exact ⟨r, hold, rfl, rfl, h.replica hold⟩
  refine
    { bus := h.bus
      registered := fun {key position j} hj => ?registered
      own := fun {j r'} hr => ?own
      replica := fun {j r'} hr => ?replica }
  case registered =>
    obtain ⟨r, hr, rfl, rfl⟩ := h.registered hj
    by_cases hnode : node = j
    · subst hnode
      exact ⟨f r, by simp [hr], hkey r, hposition r⟩
    · exact ⟨r, by simp [hr, hnode], rfl, rfl⟩
  case own =>
    obtain ⟨r, hr, hk, hp, -⟩ := hsplit hr
    rw [hk, hp]
    exact h.own hr
  case replica =>
    obtain ⟨r, hr, hk, hp, hinv⟩ := hsplit hr
    rw [hk, hp]
    exact hinv

theorem key_disconnect (r : Replica) : r.disconnect.key = r.key := rfl

theorem key_handle (r : Replica) (index : Nat) (event : StockEvent) :
    (r.handle index event).key = r.key := by
  unfold Replica.handle WarehouseNode.handle Replica.key
  cases r.node.connected <;> rfl

theorem Inv.disconnect (h : Inv w) (node : Nat) : Inv (w.disconnect node) :=
  h.modify key_disconnect (fun _ => rfl) fun _ hr => (h.replica hr).disconnect

theorem Inv.reconnect (h : Inv w) (node : Nat) : Inv (w.reconnect node) :=
  h.modify (fun r => (r.reconnect_node w.log).2.2.1) (fun _ => rfl) fun _ hr => (h.replica hr).reconnect

/-- In a step of a pass each node stays as it is, or is called with the event that is next for it. -/
theorem Inv.drain_nodes (h : Inv w) {p : Pass StockEvent} (hp : w.bus.bus.draining = some p)
    {j : Nat} {r' : Replica} (hr : (w.drain p).nodes[j]? = some r') :
    ∃ r, w.nodes[j]? = some r ∧
      ((r' = r ∧ (w.drain p).bus.reached r.key r.position = w.bus.reached r.key r.position) ∨
        ∃ event, w.log[w.bus.reached r.key r.position]? = some event ∧
          r' = r.handle (w.bus.reached r.key r.position) event ∧
          (w.drain p).bus.reached r.key r.position = w.bus.reached r.key r.position + 1) := by
  cases hc : (w.bus.bus.drain p).2 with
  | none =>
    have hr : w.nodes[j]? = some r' := by simpa [Warehouses.drain, hc] using hr
    obtain ⟨hlt, -⟩ := List.getElem?_eq_some_iff.mp (h.own hr)
    exact ⟨r', hr, Or.inl ⟨rfl, h.bus.reached_quiet hp hc hlt⟩⟩
  | some c =>
    obtain ⟨hhandler, hindex, hevent, hreached⟩ := h.bus.reached_call hp hc
    obtain ⟨called, hcalled, hkey, hposition⟩ := h.registered hhandler
    have hnodes : (w.drain p).nodes =
        w.nodes.modify c.handler fun r => r.handle c.index c.event := by
      simp [Warehouses.drain, hc]
    rw [hnodes, List.getElem?_modify] at hr
    obtain ⟨r, hold, rfl⟩ := Option.map_eq_some_iff.mp hr
    refine ⟨r, hold, ?_⟩
    by_cases hj : c.handler = j
    · subst hj
      obtain rfl := Option.some.inj (hcalled.symm.trans hold)
      rw [← hkey, ← hposition] at hindex
      rw [← hkey, topic_key, hindex] at hevent
      refine Or.inr ⟨c.event, hevent, by rw [if_pos rfl, hindex], ?_⟩
      exact (hreached _ _).trans (if_pos ⟨hkey.symm, hposition.symm⟩)
    · refine Or.inl ⟨if_neg hj, (hreached _ _).trans (if_neg ?_)⟩
      -- another node does not have the place of the handler that is called
      rintro ⟨hk, hpos⟩
      have hown := h.own hold
      rw [← hk, ← hpos, hhandler] at hown
      exact hj (Option.some.inj hown)

theorem getElem?_nodes_drain (w : Warehouses) (p : Pass StockEvent) {j : Nat} {r : Replica}
    (hr : w.nodes[j]? = some r) :
    ∃ r', (w.drain p).nodes[j]? = some r' ∧ r'.key = r.key ∧ r'.position = r.position := by
  cases hc : (w.bus.bus.drain p).2 with
  | none => exact ⟨r, by simpa [Warehouses.drain, hc] using hr, rfl, rfl⟩
  | some c =>
    have hnodes : (w.drain p).nodes =
        w.nodes.modify c.handler fun r => r.handle c.index c.event := by
      simp [Warehouses.drain, hc]
    rw [hnodes, List.getElem?_modify]
    by_cases hj : c.handler = j
    · exact ⟨r.handle c.index c.event, by simp [hr, hj], key_handle .., rfl⟩
    · exact ⟨r, by simp [hr, hj], rfl, rfl⟩

theorem Inv.log_drain (h : Inv w) {p : Pass StockEvent} (hp : w.bus.bus.draining = some p) :
    (w.drain p).log = w.log :=
  congrFun (InMemoryEventBus.drain_frame h.bus.bus hp).1 STOCK_EVENTS_TOPIC

theorem Inv.drain (h : Inv w) {p : Pass StockEvent} (hp : w.bus.bus.draining = some p) :
    Inv (w.drain p) := by
  have hhandlers : (w.drain p).bus.bus.groupHandlers = w.bus.bus.groupHandlers :=
    ObservedBus.groupHandlers_drain p
  refine
    { bus := h.bus.drain hp
      registered := fun {key position j} hj => ?registered
      own := fun {j r'} hr => ?own
      replica := fun {j r'} hr => ?replica }
  case registered =>
    rw [hhandlers] at hj
    obtain ⟨r, hr, rfl, rfl⟩ := h.registered hj
    exact getElem?_nodes_drain w p hr
  case own =>
    obtain ⟨r, hold, ⟨rfl, -⟩ | ⟨event, -, rfl, -⟩⟩ := h.drain_nodes hp hr
    · rw [hhandlers]
      exact h.own hold
    · rw [hhandlers, key_handle]
      exact h.own hold
  case replica =>
    rw [h.log_drain hp]
    obtain ⟨r, hold, ⟨rfl, hreached⟩ | ⟨event, hevent, rfl, hreached⟩⟩ := h.drain_nodes hp hr
    · rw [hreached]
      exact h.replica hold
    · rw [key_handle, show Replica.position (Replica.handle _ _ _) = r.position from rfl, hreached]
      exact (h.replica hold).handle hevent

theorem Inv.step (h : Inv w) {a : WarehouseAction} (hs : w.step a = some w') : Inv w' := by
  cases a with
  | create nodeId =>
    simp only [Warehouses.step, Option.ite_none_right_eq_some, Option.some.injEq] at hs
    obtain ⟨hidle, rfl⟩ := hs
    exact h.create hidle nodeId
  | emitStockChange sku delta =>
    simp only [Warehouses.step, Option.ite_none_right_eq_some, Option.some.injEq] at hs
    obtain ⟨hidle, rfl⟩ := hs
    exact h.emit hidle sku delta
  | disconnect node =>
    simp only [Warehouses.step, Option.ite_none_right_eq_some, Option.some.injEq] at hs
    obtain ⟨-, rfl⟩ := hs
    exact h.disconnect node
  | reconnect node =>
    simp only [Warehouses.step, Option.ite_none_right_eq_some, Option.some.injEq] at hs
    obtain ⟨-, rfl⟩ := hs
    exact h.reconnect node
  | go =>
    obtain ⟨p, hp, rfl⟩ := Option.map_eq_some_iff.mp hs
    exact h.drain hp

theorem Inv.run (h : Inv w) {actions : List WarehouseAction} (hr : w.run actions = some w') :
    Inv w' := by
  induction actions generalizing w with
  | nil =>
    obtain rfl := Option.some.inj hr
    exact h
  | cons a actions ih =>
    rw [Warehouses.run, List.foldlM_cons] at hr
    obtain ⟨w₁, hs, hrest⟩ := Option.bind_eq_some_iff.mp hr
    exact ih (h.step hs) hrest

theorem Inv.present (h : Inv w) {j : Nat} {r : Replica} (hr : w.nodes[j]? = some r) :
    (w.bus.bus.groupCursors.get r.key).isSome = true := by
  cases hn : w.bus.bus.groupCursors.get r.key with
  | some n => rfl
  | none =>
    have hown := h.own hr
    have hlen := h.bus.subscribed r.key
    rw [h.bus.unknown hn] at hlen
    rw [List.eq_nil_of_length_eq_zero hlen.symm] at hown
    cases hown

/-- When delivery has finished, the bus has got to the end of the log with every node. -/
theorem Inv.reached_of_delivered (h : Inv w) (hd : w.Delivered) {j : Nat} {r : Replica}
    (hr : w.nodes[j]? = some r) :
    w.bus.reached r.key r.position = w.log.length := by
  obtain ⟨n, hn⟩ := Option.isSome_iff_exists.mp (h.present hr)
  rw [ObservedBus.reached, hn, ObservedBus.inHand_of_none hd.1]
  exact hd.2 r.key n (topic_key r) hn

theorem Inv.replica_of_delivered (h : Inv w) (hd : w.Delivered) {j : Nat} {r : Replica}
    (hr : w.nodes[j]? = some r) : r.Inv w.log w.log.length := by
  have hinv := h.replica hr
  rwa [h.reached_of_delivered hd hr] at hinv

/-- In every run, when delivery has finished: a connected node has applied each event of the log exactly
once exactly when the bus never handed it, while it was connected, an event from before its last
`reconnect`, and it did not join an advanced group without one. -/
theorem appliedOnce_iff {actions : List WarehouseAction} (hr : empty.run actions = some w)
    (hd : w.Delivered) {j : Nat} {r : Replica} (hj : w.nodes[j]? = some r)
    (hc : r.node.connected = true) :
    AppliedOnce r w.log ↔
      r.misdelivered = false ∧ (r.joinedAt = 0 ∨ r.reconnectedAt.isSome = true) :=
  ((inv_empty.run hr).replica_of_delivered hd hj).once_iff hc

theorem delivered_of_entries (hidle : w.bus.bus.draining.isSome = false)
    (hall : (w.bus.bus.groupCursors.entries.all fun e => e.2 = w.log.length) = true) :
    w.Delivered := by
  refine ⟨by simpa using hidle, fun key n _ hn => ?_⟩
  exact of_decide_eq_true (List.all_eq_true.mp hall _ (InsertionMap.mem_entries_iff.mpr hn))

/-- A node that misses an event and replays it when the bus is idle. -/
def quietReconnect : List WarehouseAction :=
  [.create "a", .create "b", .disconnect 1, .emitStockChange "sku" 5] ++ List.replicate 10 .go ++
    [.reconnect 1]

theorem quietReconnect_once : ∃ w, empty.run quietReconnect = some w ∧
    ∃ r, w.nodes[1]? = some r ∧ (AppliedOnce r w.log ↔
      r.misdelivered = false ∧ (r.joinedAt = 0 ∨ r.reconnectedAt.isSome = true)) := by
  have hrun : (empty.run quietReconnect).map (fun w => (w.bus.bus.draining.isSome,
      w.bus.bus.groupCursors.entries.all (fun e => e.2 = w.log.length),
      w.nodes[1]?.map fun r => r.node.connected)) = some (false, true, some true) := by
    decide +kernel
  obtain ⟨w, hr, hseen⟩ := Option.map_eq_some_iff.mp hrun
  simp only [Prod.mk.injEq] at hseen
  obtain ⟨hidle, hall, hnode⟩ := hseen
  obtain ⟨r, hj, hc⟩ := Option.map_eq_some_iff.mp hnode
  exact ⟨w, hr, r, hj, appliedOnce_iff hr (delivered_of_entries hidle hall) hj hc⟩

/-- A node that reconnects while the bus is at the handler of another. -/
def hastyReconnect : List WarehouseAction :=
  [.create "a", .create "b", .emitStockChange "sku" 5, .go, .go, .reconnect 1] ++
    List.replicate 8 .go

/-- It applies the event twice. -/
theorem hastyReconnect_twice : ¬ ∀ (actions : List WarehouseAction) (w : Warehouses) (j : Nat)
    (r : Replica), empty.run actions = some w → w.Delivered → w.nodes[j]? = some r →
    r.node.connected = true → AppliedOnce r w.log := by
  intro hall
  have hrun : (empty.run hastyReconnect).map (fun w => (w.bus.bus.draining.isSome,
      w.bus.bus.groupCursors.entries.all (fun e => e.2 = w.log.length), w.log.length,
      w.nodes[1]?.map fun r => (r.node.connected, r.applied))) =
        some (false, true, 1, some (true, [0, 0])) := by
    decide +kernel
  obtain ⟨w, hr, hseen⟩ := Option.map_eq_some_iff.mp hrun
  simp only [Prod.mk.injEq] at hseen
  obtain ⟨hidle, hdone, hlength, hnode⟩ := hseen
  obtain ⟨r, hj, hr'⟩ := Option.map_eq_some_iff.mp hnode
  obtain ⟨hc, happlied⟩ := Prod.mk.inj hr'
  have honce := (hall _ w 1 r hr (delivered_of_entries hidle hdone) hj hc).1 0
  rw [happlied, hlength] at honce
  cases honce

end Warehouses

end SupplyChain
