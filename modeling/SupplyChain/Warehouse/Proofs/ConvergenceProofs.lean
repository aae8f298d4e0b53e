import SupplyChain.Async.Settle
import SupplyChain.Warehouse.Proofs.WarehouseProofs

/-!
# Proofs: the nodes converge

With one operation after the other the bus owes nothing when a node reconnects, so every node shows a
prefix of the log: all of it while the node is connected.
-/

namespace SupplyChain

open Async Collections InMemoryEventBus

namespace Warehouses

variable {w w' w₀ : Warehouses} {log : List StockEvent} {j : Nat} {r : Replica}

/-- Every group on the bus has a node in it. -/
theorem Inv.node_of_group (h : Inv w) {key : String} {n : Nat}
    (hn : w.bus.bus.groupCursors.get key = some n) :
    ∃ (j : Nat) (r : Replica), w.nodes[j]? = some r ∧ r.key = key := by
  obtain ⟨hlt, -⟩ := List.getElem?_eq_some_iff.mp (h.bus.first hn)
  rw [h.bus.subscribed] at hlt
  obtain ⟨r, hr, hkey, -⟩ := h.registered (List.getElem?_eq_getElem hlt)
  exact ⟨_, r, hr, hkey⟩

/-! ## While an emission is awaited -/

/-- What holds while the pass that an emission started in `w₀` goes on. -/
structure Emitting (w₀ : Warehouses) (log : List StockEvent) (w : Warehouses) : Prop where
  inv : w.Inv
  log_eq : w.log = log
  served : ∀ {j : Nat} {r : Replica}, w.nodes[j]? = some r →
    Served w.bus.bus STOCK_EVENTS_TOPIC r.key
  caughtUp : ∀ {j : Nat} {r : Replica}, w.nodes[j]? = some r →
    r.reconnectedAt.getD 0 ≤ w.bus.reached r.key r.position
  node : ∀ {j : Nat} {r : Replica}, w.nodes[j]? = some r → r.misdelivered = false ∧
    r.joinedAt = 0 ∧ ∃ r₀, w₀.nodes[j]? = some r₀ ∧ r.node.connected = r₀.node.connected ∧
      (r.node.connected = false → r.node.appliedCount = r₀.node.appliedCount)

theorem connected_handle (r : Replica) (index : Nat) (event : StockEvent) :
    (r.handle index event).node.connected = r.node.connected ∧
      (r.node.connected = false → (r.handle index event).node = r.node) := by
  cases hc : r.node.connected <;>
    simp [Replica.handle, WarehouseNode.handle, WarehouseNode.apply, hc]

theorem Emitting.drain (h : Emitting w₀ log w) {p : Pass StockEvent}
    (hp : w.bus.bus.draining = some p) : Emitting w₀ log (w.drain p) where
  inv := h.inv.drain hp
  log_eq := (h.inv.log_drain hp).trans h.log_eq
  served {j r'} hr := by
    have hserved : ∀ {r : Replica}, w.nodes[j]? = some r →
        Served (w.drain p).bus.bus STOCK_EVENTS_TOPIC r.key :=
      fun hold => (h.served hold).drain h.inv.bus.bus (topic_key _) (h.inv.present hold) hp
    obtain ⟨r, hold, ⟨rfl, -⟩ | ⟨event, -, rfl, -⟩⟩ := h.inv.drain_nodes hp hr
    · exact hserved hold
    · rw [key_handle]
      exact hserved hold
  caughtUp {j r'} hr := by
    obtain ⟨r, hold, ⟨rfl, hreached⟩ | ⟨event, -, rfl, hreached⟩⟩ := h.inv.drain_nodes hp hr
    · rw [hreached]
      exact h.caughtUp hold
    · rw [key_handle, show Replica.position (Replica.handle _ _ _) = r.position from rfl, hreached]
      exact Nat.le_succ_of_le (h.caughtUp hold)
  node {j r'} hr := by
    obtain ⟨r, hold, ⟨rfl, -⟩ | ⟨event, -, rfl, -⟩⟩ := h.inv.drain_nodes hp hr
    · exact h.node hold
    · obtain ⟨hgood, hjoined, r₀, hr₀, hconnected, hfrozen⟩ := h.node hold
      obtain ⟨hsame, hdropped⟩ := connected_handle r (w.bus.reached r.key r.position) event
      have htimely : r.early (w.bus.reached r.key r.position) = false := by
        have hle := h.caughtUp hold
        unfold Replica.early
        cases hm : r.reconnectedAt with
        | none => simp [hjoined]
        | some m => simpa [hm] using hle
      refine ⟨by simp [Replica.handle, hgood, htimely], hjoined, r₀, hr₀, hsame.trans hconnected,
        fun hc => ?_⟩
      rw [hsame] at hc
      rw [hdropped hc]
      exact hfrozen hc

/-- An awaited emission ends, and then everything is delivered. -/
theorem Emitting.settle (h : Emitting w₀ log w) : ∃ w', Async.settle go w.bus.bus.passBound w = w' ∧
    Emitting w₀ log w' ∧ w'.Delivered := by
  have hstep : ∀ {w w' : Warehouses}, Emitting w₀ log w → w.go = some w' →
      Emitting w₀ log w' ∧ w'.bus.bus.passBound < w.bus.bus.passBound := by
    intro w w' h hs
    obtain ⟨p, hp, rfl⟩ := Option.map_eq_some_iff.mp hs
    exact ⟨h.drain hp, passBound_drain h.inv.bus.bus hp⟩
  have hend := settle_preserves (fun h hs => (hstep h hs).1) w.bus.bus.passBound h
  have hstop : (Async.settle go w.bus.bus.passBound w).go = none :=
    settle_stops hstep h (Nat.le_refl w.bus.bus.passBound)
  have hidle := Option.map_eq_none_iff.mp hstop
  refine ⟨_, rfl, hend, hidle, fun key n _ hn => ?_⟩
  obtain ⟨j, r, hr, rfl⟩ := hend.inv.node_of_group hn
  rcases hend.served hr with ⟨p, hp, -⟩ | hcursor
  · cases hidle.symm.trans hp
  · exact Option.some.inj (hn.symm.trans hcursor)

/-! ## Between operations -/

/-- The nodes show what the log says they do. -/
structure Shows (s : StockLog) (w : Warehouses) : Prop where
  inv : w.Inv
  delivered : w.Delivered
  log_eq : w.log = s.log
  node : ∀ {j : Nat} {r : Replica}, w.nodes[j]? = some r → r.misdelivered = false ∧
    r.joinedAt = 0 ∧ r.node.connected = (s.frozen j).isNone
  view_prefix : ∀ j, s.view j <+: s.log
  applied : ∀ {j : Nat} {r : Replica}, w.nodes[j]? = some r →
    r.node.appliedCount = (s.view j).length

theorem idle_of_delivered (h : w.Delivered) : w.bus.bus.idle = true := by
  rw [InMemoryEventBus.idle, h.1]
  rfl

variable {s : StockLog}

theorem Shows.create (h : Shows s w) (hs : s = .start) (nodeId : String) :
    Shows s (w.create nodeId) := by
  subst hs
  have hinv := h.inv.create (idle_of_delivered h.delivered) nodeId
  have hempty : w.log.length = 0 := by rw [h.log_eq]; rfl
  have hcursor : ∀ {key n}, (splitKey key).1 = STOCK_EVENTS_TOPIC →
      (w.create nodeId).bus.bus.groupCursors.get key = some n → n = 0 := by
    intro key n hkey hn
    rw [show (w.create nodeId).bus.bus.groupCursors.get key = _ from
      ObservedBus.get_subscribe] at hn
    cases hg : w.bus.bus.groupCursors.get key with
    | none =>
      rw [hg] at hn
      split at hn
      · exact (Option.some.inj hn).symm
      · cases hn
    | some m =>
      rw [hg] at hn
      have hm := (h.delivered.2 key m hkey hg).trans hempty
      split at hn
      · exact (Option.some.inj hn).symm.trans hm
      · exact (Option.some.inj hn).symm.trans hm
  have hjoined : (w.joining nodeId).joinedAt = 0 := by
    rw [joining]
    cases hg : w.bus.bus.groupCursors.get (groupKey STOCK_EVENTS_TOPIC (WarehouseNode.groupId nodeId)) with
    | none => rfl
    | some m => exact (h.delivered.2 _ m (topic_groupKey (by decide) _) hg).trans hempty
  refine ⟨hinv, ⟨h.delivered.1, fun key n hkey hn => ?_⟩, h.log_eq, fun hr => ?_, h.view_prefix,
    fun hr => ?_⟩
  · rw [hcursor hkey hn]
    exact hempty.symm
  · rcases (getElem?_nodes_create w nodeId).mp hr with hr | ⟨-, rfl⟩
    · exact h.node hr
    · exact ⟨rfl, hjoined, rfl⟩
  · rcases (getElem?_nodes_create w nodeId).mp hr with hr | ⟨-, rfl⟩
    · exact h.applied hr
    · rfl

theorem Shows.emit (h : Shows s w) (sku : Sku) (delta : Int) :
    Shows (s.perform (.emit sku delta)) (w.emitAwaited sku delta) := by
  have hidle := idle_of_delivered h.delivered
  have hlog : (w.emitStockChange sku delta).log = s.log ++ [⟨sku, delta⟩] := by
    rw [← h.log_eq]
    show (w.bus.bus.publish STOCK_EVENTS_TOPIC ⟨sku, delta⟩).topics STOCK_EVENTS_TOPIC = _
    rw [InMemoryEventBus.topics_publish, if_pos rfl]
    rfl
  have hdraining : (w.emitStockChange sku delta).bus.bus.draining = _ :=
    w.bus.bus.draining_publish STOCK_EVENTS_TOPIC ⟨sku, delta⟩
  have hstart : Emitting w (s.log ++ [⟨sku, delta⟩]) (w.emitStockChange sku delta) := by
    refine ⟨h.inv.emit hidle sku delta, hlog, fun {j r} hr => ?_, fun {j r} hr => ?_,
      fun {j r} hr => ?_⟩
    · refine Or.inl ⟨_, hdraining, ?_⟩
      rw [h.delivered.1]
      rfl
    · rw [show (w.emitStockChange sku delta).bus.reached _ _ = _ from
        ObservedBus.reached_publish hidle _ _, h.inv.reached_of_delivered h.delivered hr]
      exact (h.inv.replica hr).reconnectedAt_le
    · obtain ⟨hgood, hjoined, -⟩ := h.node hr
      exact ⟨hgood, hjoined, r, hr, rfl, fun _ => rfl⟩
  obtain ⟨w', hsettle, hend, hdelivered⟩ := hstart.settle
  rw [Warehouses.emitAwaited, hsettle]
  refine ⟨hend.inv, hdelivered, hend.log_eq, fun {j r} hr => ?_, fun j => ?_, fun {j r} hr => ?_⟩
  · obtain ⟨hgood, hjoined, r₀, hr₀, hconnected, -⟩ := hend.node hr
    exact ⟨hgood, hjoined, hconnected.trans (h.node hr₀).2.2⟩
  · have hprefix := h.view_prefix j
    unfold StockLog.view at hprefix ⊢
    cases hf : s.frozen j with
    | none => simp [StockLog.perform, hf]
    | some frozen =>
      rw [hf] at hprefix
      simpa [StockLog.perform, hf] using hprefix.trans (List.prefix_append _ _)
  · obtain ⟨hgood, hjoined, r₀, hr₀, hconnected, hfrozen⟩ := hend.node hr
    have hflag := hconnected.trans (h.node hr₀).2.2
    have hbefore := h.applied hr₀
    unfold StockLog.view at hbefore ⊢
    cases hf : s.frozen j with
    | some frozen =>
      rw [hf] at hflag hbefore
      rw [hfrozen hflag, hbefore]
      simp [StockLog.perform, hf]
    | none =>
      rw [hf] at hflag
      have hinv := hend.inv.replica_of_delivered hdelivered hr
      have hcaught := hinv.caught hgood hflag (Or.inl hjoined)
      rw [hcaught, Nat.max_eq_left hinv.reconnectedAt_le, hend.log_eq]
      simp [StockLog.perform, hf]

theorem getElem?_modify_some {nodes : List Replica} {node : Nat} {f : Replica → Replica}
    {r' : Replica} (hr : (nodes.modify node f)[j]? = some r') :
    ∃ r : Replica, nodes[j]? = some r ∧ r' = if node = j then f r else r := by
  rw [List.getElem?_modify] at hr
  obtain ⟨r, hold, rfl⟩ := Option.map_eq_some_iff.mp hr
  exact ⟨r, hold, by split <;> rfl⟩

theorem Shows.disconnect (h : Shows s w) (node : Nat) :
    Shows (s.perform (.disconnect node)) (w.disconnect node) := by
  have hview : ∀ j, (s.perform (.disconnect node)).view j = s.view j := by
    intro j
    unfold StockLog.view StockLog.perform
    by_cases hj : j = node
    · simp [hj]
    · simp [hj]
  refine ⟨h.inv.disconnect node, h.delivered, h.log_eq, fun {j r'} hr => ?_, fun j => ?_,
    fun {j r'} hr => ?_⟩
  · obtain ⟨r, hold, rfl⟩ := getElem?_modify_some hr
    obtain ⟨hgood, hjoined, hconnected⟩ := h.node hold
    by_cases hj : node = j
    · subst hj
      rw [if_pos rfl]
      refine ⟨hgood, hjoined, ?_⟩
      simp [StockLog.perform, Replica.disconnect, WarehouseNode.disconnect]
    · rw [if_neg hj]
      refine ⟨hgood, hjoined, ?_⟩
      simpa [StockLog.perform, Ne.symm hj] using hconnected
  · rw [hview]
    exact h.view_prefix j
  · obtain ⟨r, hold, rfl⟩ := getElem?_modify_some hr
    rw [hview, ← h.applied hold]
    split <;> rfl

theorem Shows.reconnect (h : Shows s w) (node : Nat) :
    Shows (s.perform (.reconnect node)) (w.reconnect node) := by
  refine ⟨h.inv.reconnect node, h.delivered, h.log_eq, fun {j r'} hr => ?_, fun j => ?_,
    fun {j r'} hr => ?_⟩
  · obtain ⟨r, hold, rfl⟩ := getElem?_modify_some hr
    obtain ⟨hgood, hjoined, hconnected⟩ := h.node hold
    by_cases hj : node = j
    · subst hj
      obtain ⟨-, hon, -⟩ := r.reconnect_node w.log
      rw [if_pos rfl]
      refine ⟨hgood, hjoined, ?_⟩
      simpa [StockLog.perform] using hon
    · rw [if_neg hj]
      refine ⟨hgood, hjoined, ?_⟩
      simpa [StockLog.perform, Ne.symm hj] using hconnected
  · have hprefix := h.view_prefix j
    unfold StockLog.view at hprefix ⊢
    by_cases hj : j = node
    · simp [StockLog.perform, hj]
    · simpa [StockLog.perform, hj] using hprefix
  · obtain ⟨r, hold, rfl⟩ := getElem?_modify_some hr
    by_cases hj : node = j
    · subst hj
      rw [if_pos rfl, (h.inv.replica hold).appliedCount_reconnect (h.node hold).1, h.log_eq]
      simp [StockLog.view, StockLog.perform]
    · rw [if_neg hj, h.applied hold]
      simp [StockLog.view, StockLog.perform, Ne.symm hj]

theorem Shows.perform (h : Shows s w) (op : WarehouseOp) : Shows (s.perform op) (w.perform op) := by
  cases op with
  | emit sku delta => exact h.emit sku delta
  | disconnect node => exact h.disconnect node
  | reconnect node => exact h.reconnect node

theorem shows_start (nodeIds : List String) : Shows .start (start nodeIds) := by
  have hcreate : ∀ (nodeIds : List String) (w : Warehouses), Shows .start w →
      Shows .start (nodeIds.foldl create w) := by
    intro nodeIds
    induction nodeIds with
    | nil => exact fun w h => h
    | cons nodeId nodeIds ih => exact fun w h => ih _ (h.create rfl nodeId)
  refine hcreate nodeIds empty ⟨inv_empty, ⟨rfl, ?_⟩, rfl, ?_, ?_, ?_⟩
  · intro key n _ hn
    cases hn
  · intro j r hr
    simp [empty] at hr
  · intro j
    exact List.prefix_refl _
  · intro j r hr
    simp [empty] at hr

theorem Shows.run (h : Shows s w) (ops : List WarehouseOp) :
    Shows (ops.foldl StockLog.perform s) (ops.foldl Warehouses.perform w) := by
  induction ops generalizing s w with
  | nil => exact h
  | cons op ops ih => exact ih (h.perform op)

/-- After any operations, one after the other: everything is delivered, a connected node shows the log,
and a disconnected one shows it as it was when it was disconnected. -/
theorem nodes_converge (nodeIds : List String) (ops : List WarehouseOp) :
    (ops.foldl Warehouses.perform (start nodeIds)).Delivered ∧
      (ops.foldl Warehouses.perform (start nodeIds)).log =
        (ops.foldl StockLog.perform .start).log ∧
      ∀ (j : Nat) (r : Replica), (ops.foldl Warehouses.perform (start nodeIds)).nodes[j]? = some r →
        r.node.connected = ((ops.foldl StockLog.perform .start).frozen j).isNone ∧
          r.node.appliedCount = ((ops.foldl StockLog.perform .start).view j).length ∧
          ∀ sku, r.node.get sku = total sku ((ops.foldl StockLog.perform .start).view j) := by
  have h := (shows_start nodeIds).run ops
  refine ⟨h.delivered, h.log_eq, fun j r hr => ?_⟩
  obtain ⟨hgood, -, hconnected⟩ := h.node hr
  obtain ⟨-, -, hstock⟩ := (h.inv.replica hr).good hgood
  have hcount := h.applied hr
  refine ⟨hconnected, hcount, fun sku => ?_⟩
  rw [WarehouseNode.get, hstock, hcount, h.log_eq, ← List.prefix_iff_eq_take.mp (h.view_prefix j)]

end Warehouses

end SupplyChain
