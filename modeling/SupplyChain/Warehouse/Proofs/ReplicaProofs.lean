import SupplyChain.Warehouse.WarehouseSync

/-!
# Proofs: what a node has applied

A node knows only how many events it has applied. That is the length of a prefix of the log as long as
the bus goes on where the node's last `reconnect` stopped.
-/

namespace SupplyChain

/-! ## Stock as a sum -/

theorem total_append (sku : Sku) (log log' : List StockEvent) :
    total sku (log ++ log') = total sku log + total sku log' := by
  simp [total]

theorem total_singleton (sku : Sku) (e : StockEvent) :
    total sku [e] = if e.sku = sku then e.delta else 0 := by
  simp [total]

namespace WarehouseNode

theorem foldl_apply (events : List StockEvent) (node : WarehouseNode) :
    (events.foldl apply node).appliedCount = node.appliedCount + events.length ∧
      (events.foldl apply node).connected = node.connected ∧
      (events.foldl apply node).nodeId = node.nodeId ∧
      ∀ sku, (events.foldl apply node).localStock sku = node.localStock sku + total sku events := by
  induction events generalizing node with
  | nil => simp [total]
  | cons e events ih =>
    obtain ⟨hcount, hconnected, hid, hstock⟩ := ih (node.apply e)
    refine ⟨?_, hconnected, hid, fun sku => ?_⟩
    · rw [List.foldl_cons, hcount, List.length_cons]
      simp only [apply]
      omega
    · rw [List.foldl_cons, hstock, ← List.singleton_append, total_append, total_singleton]
      simp only [apply, eq_comm]
      split <;> omega

end WarehouseNode

/-! ## The invariant of a node -/

/-- What a node has applied, when `reached` events of the log have been handed to its handler or were
handed to its group before it joined. -/
structure Replica.Inv (log : List StockEvent) (reached : Nat) (r : Replica) : Prop where
  joined_le : r.joinedAt ≤ reached
  reached_le : reached ≤ log.length
  reconnected_le : ∀ {m}, r.reconnectedAt = some m → m ≤ log.length
  /-- Without misdelivery it has applied a prefix of the log. -/
  good : r.misdelivered = false → r.applied = List.range r.node.appliedCount ∧
    r.node.appliedCount ≤ log.length ∧
      ∀ sku, r.node.localStock sku = total sku (log.take r.node.appliedCount)
  caught : r.misdelivered = false → r.node.connected = true →
    (r.joinedAt = 0 ∨ r.reconnectedAt.isSome = true) →
      r.node.appliedCount = max reached (r.reconnectedAt.getD 0)
  unread : r.misdelivered = false → r.joinedAt ≠ 0 → r.reconnectedAt = none →
    r.node.appliedCount = 0
  /-- After misdelivery it has applied an event twice, or will never apply the first one. -/
  bad : r.misdelivered = true →
    (∃ i, 2 ≤ r.applied.count i) ∨ (0 ∉ r.applied ∧ 0 < r.node.appliedCount ∧ 0 < reached)

namespace Replica

variable {log : List StockEvent} {reached : Nat} {r : Replica}

theorem Inv.reconnectedAt_le (h : r.Inv log reached) : r.reconnectedAt.getD 0 ≤ log.length := by
  cases hm : r.reconnectedAt with
  | none => exact Nat.zero_le _
  | some m => exact h.reconnected_le hm

theorem Inv.publish (h : r.Inv log reached) (event : StockEvent) :
    r.Inv (log ++ [event]) reached where
  joined_le := h.joined_le
  reached_le := by
    rw [List.length_append]
    exact Nat.le_add_right_of_le h.reached_le
  reconnected_le hm := by
    rw [List.length_append]
    exact Nat.le_add_right_of_le (h.reconnected_le hm)
  good hgood := by
    obtain ⟨happlied, hle, hstock⟩ := h.good hgood
    refine ⟨happlied, ?_, fun sku => ?_⟩
    · rw [List.length_append]
      exact Nat.le_add_right_of_le hle
    · rw [List.take_append_of_le_length hle, hstock]
  caught := h.caught
  unread := h.unread
  bad := h.bad

theorem Inv.disconnect (h : r.Inv log reached) : r.disconnect.Inv log reached where
  joined_le := h.joined_le
  reached_le := h.reached_le
  reconnected_le := h.reconnected_le
  good := h.good
  caught _ hconnected := by cases hconnected
  unread := h.unread
  bad := h.bad

theorem two_le_count_append {l l' : List Nat} {i : Nat} (h : 2 ≤ l.count i) :
    2 ≤ (l ++ l').count i := by
  rw [List.count_append]
  omega

/-- A reconnect replays what follows the events that were applied. -/
theorem reconnect_node (r : Replica) (log : List StockEvent) :
    (r.reconnect log).node.appliedCount =
        r.node.appliedCount + (log.length - r.node.appliedCount) ∧
      (r.reconnect log).node.connected = true ∧ (r.reconnect log).key = r.key ∧
      ∀ sku, (r.reconnect log).node.localStock sku =
        r.node.localStock sku + total sku (log.drop r.node.appliedCount) := by
  obtain ⟨hcount, hconnected, hid, hstock⟩ := WarehouseNode.foldl_apply
    (log.drop r.node.appliedCount) { r.node with connected := true }
  rw [List.length_drop] at hcount
  refine ⟨hcount, hconnected, ?_, hstock⟩
  unfold key
  rw [show (r.reconnect log).node.nodeId = r.node.nodeId from hid]

theorem Inv.appliedCount_reconnect (h : r.Inv log reached) (hgood : r.misdelivered = false) :
    (r.reconnect log).node.appliedCount = log.length := by
  obtain ⟨hcount, -⟩ := r.reconnect_node log
  obtain ⟨-, hle, -⟩ := h.good hgood
  omega

theorem Inv.reconnect (h : r.Inv log reached) : (r.reconnect log).Inv log reached := by
  obtain ⟨hcount, -, -, hstock⟩ := r.reconnect_node log
  refine
    { joined_le := h.joined_le
      reached_le := h.reached_le
      reconnected_le := fun hm => Nat.le_of_eq (Option.some.inj hm).symm
      good := fun hgood => ?good
      caught := fun hgood _ _ => ?caught
      unread := fun _ _ hnone => by cases hnone
      bad := fun hbad => ?bad }
  case good =>
    obtain ⟨happlied, hle, hsame⟩ := h.good hgood
    have hall := h.appliedCount_reconnect hgood
    refine ⟨?_, Nat.le_of_eq hall, fun sku => ?_⟩
    · rw [hall]
      show r.applied ++ List.range' _ _ = _
      rw [happlied, List.range_eq_range', List.range_eq_range']
      have happend := List.range'_append_1 (s := 0) (m := r.node.appliedCount)
        (n := log.length - r.node.appliedCount)
      rw [Nat.zero_add] at happend
      rw [happend, Nat.add_sub_of_le hle]
    · rw [hall, List.take_length, hstock, hsame, ← total_append, List.take_append_drop]
  case caught =>
    have hreached := h.reached_le
    rw [h.appliedCount_reconnect hgood]
    exact (Nat.max_eq_right hreached).symm
  case bad =>
    rcases h.bad hbad with ⟨i, hi⟩ | ⟨hzero, hpos, hreached⟩
    · exact Or.inl ⟨i, two_le_count_append hi⟩
    · refine Or.inr ⟨?_, by omega, hreached⟩
      show 0 ∉ r.applied ++ List.range' r.node.appliedCount _
      rw [List.mem_append, List.mem_range'_1]
      rintro (hmem | ⟨hle, -⟩)
      · exact hzero hmem
      · omega

/-- The bus hands the next event of the log to the node. -/
theorem Inv.handle (h : r.Inv log reached) {event : StockEvent} (he : log[reached]? = some event) :
    (r.handle reached event).Inv log (reached + 1) := by
  obtain ⟨hlt, -⟩ := List.getElem?_eq_some_iff.mp he
  have hjoined := h.joined_le
  cases hc : r.node.connected with
  | false =>
    -- the event is dropped
    have hsame : r.handle reached event = r := by
      simp [Replica.handle, WarehouseNode.handle, hc]
    rw [hsame]
    exact
      { joined_le := by omega
        reached_le := hlt
        reconnected_le := h.reconnected_le
        good := h.good
        caught := fun _ hconnected => by rw [hc] at hconnected; cases hconnected
        unread := h.unread
        bad := fun hbad => (h.bad hbad).imp_right fun ⟨hzero, hpos, _⟩ => ⟨hzero, hpos, by omega⟩ }
  | true =>
    have hnode : (r.handle reached event).node = r.node.apply event := by
      simp [Replica.handle, WarehouseNode.handle, hc]
    have happlied : (r.handle reached event).applied = r.applied ++ [reached] := by
      simp [Replica.handle, hc]
    have hmis : (r.handle reached event).misdelivered = (r.misdelivered || r.early reached) := by
      simp [Replica.handle, hc]
    have hcount : (r.handle reached event).node.appliedCount = r.node.appliedCount + 1 := by
      rw [hnode]
      rfl
    -- a timely event is the one that follows those that were applied
    have htimely : r.misdelivered = false → r.early reached = false →
        r.node.appliedCount = reached ∧ r.reconnectedAt.getD 0 ≤ reached ∧
          (r.joinedAt = 0 ∨ r.reconnectedAt.isSome = true) := by
      intro hgood hearly
      cases hr : r.reconnectedAt with
      | none =>
        have hzero : r.joinedAt = 0 := by simpa [early, hr] using hearly
        have hcaught := h.caught hgood hc (Or.inl hzero)
        rw [hr, Option.getD_none] at hcaught
        exact ⟨by omega, by simp, Or.inl hzero⟩
      | some m =>
        have hle : m ≤ reached := by simpa [early, hr] using hearly
        have hcaught := h.caught hgood hc (Or.inr (by rw [hr]; rfl))
        rw [hr, Option.getD_some] at hcaught
        exact ⟨by omega, by simpa using hle, Or.inr rfl⟩
    refine
      { joined_le := Nat.le_succ_of_le hjoined
        reached_le := hlt
        reconnected_le := h.reconnected_le
        good := fun hgood' => ?good
        caught := fun hgood' _ _ => ?caught
        unread := fun hgood' hne hnone => ?unread
        bad := fun hbad => ?bad }
    case good =>
      rw [hmis, Bool.or_eq_false_iff] at hgood'
      obtain ⟨hnext, -, -⟩ := htimely hgood'.1 hgood'.2
      obtain ⟨hrange, -, hstock⟩ := h.good hgood'.1
      rw [hcount, happlied, hrange, hnext]
      refine ⟨List.range_succ.symm, hlt, fun sku => ?_⟩
      rw [hnode, List.take_add_one, he, Option.toList_some, total_append, total_singleton]
      have hbefore := hstock sku
      rw [hnext] at hbefore
      simp only [WarehouseNode.apply, hbefore, eq_comm]
      split <;> omega
    case caught =>
      rw [hmis, Bool.or_eq_false_iff] at hgood'
      obtain ⟨hnext, hle, -⟩ := htimely hgood'.1 hgood'.2
      rw [hcount, hnext]
      show _ = max (reached + 1) (r.reconnectedAt.getD 0)
      omega
    case unread =>
      rw [hmis, Bool.or_eq_false_iff] at hgood'
      obtain ⟨-, -, hfresh⟩ := htimely hgood'.1 hgood'.2
      rcases hfresh with hzero | hsome
      · exact absurd hzero hne
      · rw [show r.reconnectedAt = none from hnone] at hsome
        cases hsome
    case bad =>
      rw [happlied, hcount]
      cases hbefore : r.misdelivered with
      | true =>
        rcases h.bad hbefore with ⟨i, hi⟩ | ⟨hzero, hpos, hreached⟩
        · exact Or.inl ⟨i, two_le_count_append hi⟩
        · refine Or.inr ⟨?_, by omega, by omega⟩
          rw [List.mem_append, List.mem_singleton]
          rintro (hmem | hfirst)
          · exact hzero hmem
          · omega
      | false =>
        rw [hmis, hbefore, Bool.false_or] at hbad
        obtain ⟨hrange, -, -⟩ := h.good hbefore
        cases hr : r.reconnectedAt with
        | none =>
          -- the node joined late and does not know the events before
          have hpos : 0 < r.joinedAt := by simpa [early, hr] using hbad
          have hunread := h.unread hbefore (by omega) hr
          refine Or.inr ⟨?_, by omega, by omega⟩
          rw [hrange, hunread, List.range_zero, List.nil_append, List.mem_singleton]
          omega
        | some m =>
          -- the replay has applied the event already
          have hlt' : reached < m := by simpa [early, hr] using hbad
          have hcaught := h.caught hbefore hc (Or.inr (by rw [hr]; rfl))
          rw [hr, Option.getD_some] at hcaught
          refine Or.inl ⟨reached, ?_⟩
          rw [List.count_append, hrange, List.count_range, List.count_singleton_self,
            if_pos (by omega)]

/-- At the end of the log, a connected node has applied every event once exactly when nothing was
misdelivered to it, and it knows the log from the start. -/
theorem Inv.once_iff (h : r.Inv log log.length) (hc : r.node.connected = true) :
    Warehouses.AppliedOnce r log ↔
      r.misdelivered = false ∧ (r.joinedAt = 0 ∨ r.reconnectedAt.isSome = true) := by
  constructor
  · rintro ⟨honce, -⟩
    have hgood : r.misdelivered = false := by
      cases hmis : r.misdelivered with
      | false => rfl
      | true =>
        rcases h.bad hmis with ⟨i, hi⟩ | ⟨hzero, -, hpos⟩
        · have htwice := honce i
          split at htwice <;> omega
        · have hnever := honce 0
          rw [if_pos hpos, List.count_eq_zero.mpr hzero] at hnever
          cases hnever
    refine ⟨hgood, ?_⟩
    by_contra hunjoined
    rw [not_or] at hunjoined
    have hnone : r.reconnectedAt = none := by simpa using hunjoined.2
    obtain ⟨hrange, -, -⟩ := h.good hgood
    have hpos : 0 < log.length := by
      have hjoined := h.joined_le
      omega
    have hnever := honce 0
    rw [hrange, h.unread hgood hunjoined.1 hnone, if_pos hpos] at hnever
    simp at hnever
  · rintro ⟨hgood, hfresh⟩
    obtain ⟨hrange, -, hstock⟩ := h.good hgood
    have hcaught := h.caught hgood hc hfresh
    have hall : r.node.appliedCount = log.length := by
      have hle := h.reconnectedAt_le
      omega
    refine ⟨fun i => ?_, fun sku => ?_⟩
    · rw [hrange, hall, List.count_range]
    · rw [WarehouseNode.get, hstock, hall, List.take_length]

end Replica

end SupplyChain
