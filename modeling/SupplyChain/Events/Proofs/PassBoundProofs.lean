import SupplyChain.Events.Proofs.EventBusProofs

/-!
# Proofs: a pass that is left alone ends

Each step of a pass lowers `passBound`.
-/

namespace SupplyChain.InMemoryEventBus

open Collections

variable {E H : Type} {bus : InMemoryEventBus E H} {key : String} {n : Nat}

theorem handlerCount_eq : bus.handlerCount =
    ((bus.groupCursors.entries.map Prod.fst).map fun k => (bus.groupHandlers k).length).sum := by
  rw [handlerCount, List.map_map]
  rfl

theorem length_le_handlerCount (h : bus.groupCursors.get key = some n) :
    (bus.groupHandlers key).length ≤ bus.handlerCount := by
  obtain ⟨before, after, hsplit⟩ := List.append_of_mem (InsertionMap.mem_entries_iff.mpr h)
  rw [handlerCount, hsplit]
  simp only [List.map_append, List.map_cons, List.sum_append, List.sum_cons]
  omega

/-- Handing an event to a group pays one of the events that are owed. -/
theorem owed_set {topic : String} (h : bus.groupCursors.get key = some n)
    (htopic : (splitKey key).1 = topic) (hlt : n < (bus.topics topic).length)
    {b : InMemoryEventBus E H} (htopics : b.topics = bus.topics)
    (hcursors : b.groupCursors = bus.groupCursors.set key (n + 1)) :
    b.owed topic + 1 = bus.owed topic := by
  have hsum := InsertionMap.sum_set_of_get h (n + 1) fun e =>
    if (splitKey e.1).1 = topic then (bus.topics topic).length - e.2 else 0
  simp only [htopic, if_true] at hsum
  unfold owed
  rw [hcursors, htopics]
  omega

theorem owed_pos {topic : String} (h : bus.groupCursors.get key = some n)
    (htopic : (splitKey key).1 = topic) (hlt : n < (bus.topics topic).length) :
    0 < bus.owed topic := by
  have hpaid : InMemoryEventBus.owed { bus with groupCursors := bus.groupCursors.set key (n + 1) }
      topic + 1 = bus.owed topic := owed_set h htopic hlt rfl rfl
  omega

theorem passBound_of_round {p : Pass E} (hp : bus.draining = some p) (hd : p.delivery = none) :
    bus.passBound = bus.owed p.topic * (bus.groupCursors.entries.length + bus.handlerCount + 3) +
      (if p.madeProgress then bus.groupCursors.entries.length + 1 else 0) +
      (bus.groupCursors.entries.length - p.pos) + 1 := by
  simp [passBound, hp, hd]

theorem passBound_of_delivery {p : Pass E} {d : Delivery E} (hp : bus.draining = some p)
    (hd : p.delivery = some d) : bus.passBound =
      (bus.owed p.topic - 1) * (bus.groupCursors.entries.length + bus.handlerCount + 3) +
      (bus.groupCursors.entries.length + 1) + (bus.groupCursors.entries.length - p.pos) +
      ((bus.groupHandlers d.key).length - d.called) + 2 := by
  simp [passBound, hp, hd]

theorem passBound_drain (h : bus.Inv) {p : Pass E} (hp : bus.draining = some p) :
    (bus.drain p).1.passBound < bus.passBound := by
  generalize hout : bus.drain p = out
  have hstep : DrainStep bus p out := hout ▸ drain_step bus p
  cases hstep with
  | call d handler hd hh =>
    obtain ⟨hlt, -⟩ := List.getElem?_eq_some_iff.mp hh
    rw [passBound_of_delivery hp hd, passBound_of_delivery (p := { p with
      delivery := some { d with called := d.called + 1 } }) rfl rfl]
    dsimp only [owed, handlerCount]
    omega
  | handedOut d hd hh =>
    obtain ⟨hcursor, htopic, hevent⟩ := h.delivery hp hd
    obtain ⟨hlt, -⟩ := List.getElem?_eq_some_iff.mp hevent
    rw [passBound_of_delivery hp hd, passBound_of_round (p := { p with
      pos := p.pos + 1, madeProgress := true, delivery := none }) rfl rfl]
    have hlen := InsertionMap.length_set_of_get hcursor (d.cursor + 1)
    have hkeys := InsertionMap.keys_set_of_get hcursor (d.cursor + 1)
    have hcount : InMemoryEventBus.handlerCount { bus with
        groupCursors := bus.groupCursors.set d.key (d.cursor + 1)
        draining := some { p with pos := p.pos + 1, madeProgress := true, delivery := none } } =
          bus.handlerCount := by
      rw [handlerCount_eq, handlerCount_eq]
      dsimp only
      rw [hkeys]
    have howed : InMemoryEventBus.owed { bus with
        groupCursors := bus.groupCursors.set d.key (d.cursor + 1)
        draining := some { p with pos := p.pos + 1, madeProgress := true, delivery := none } }
          p.topic = bus.owed p.topic - 1 := by
      have hpaid := owed_set hcursor htopic hlt (b := { bus with
        groupCursors := bus.groupCursors.set d.key (d.cursor + 1)
        draining := some { p with pos := p.pos + 1, madeProgress := true, delivery := none } })
        rfl rfl
      omega
    dsimp only
    rw [hcount, howed, hlen, if_pos rfl]
    omega
  | round hd he hm =>
    have hend := List.getElem?_eq_none_iff.mp he
    rw [passBound_of_round hp hd, passBound_of_round (p := { p with
      pos := 0, madeProgress := false }) rfl hd, hm]
    dsimp only [owed, handlerCount]
    simp only [if_true, Bool.false_eq_true, if_false]
    omega
  | finish hd he hm =>
    rw [passBound_of_round hp hd]
    show 0 < _
    omega
  | skip k cursor hd he hs =>
    obtain ⟨hlt, -⟩ := List.getElem?_eq_some_iff.mp he
    rw [passBound_of_round hp hd, passBound_of_round (p := { p with pos := p.pos + 1 }) rfl hd]
    dsimp only [owed, handlerCount]
    omega
  | take k cursor event hd he ht hv =>
    have hcursor := InsertionMap.mem_entries_iff.mp (List.mem_of_getElem? he)
    obtain ⟨hlt, -⟩ := List.getElem?_eq_some_iff.mp hv
    have hpos := owed_pos hcursor ht hlt
    have hlen := length_le_handlerCount hcursor
    rw [passBound_of_round hp hd, passBound_of_delivery (p := { p with
      delivery := some ⟨k, cursor, event, 0⟩ }) rfl rfl]
    -- the event that is taken pays for the calls of the handlers and the next round
    have hpay : bus.owed p.topic * (bus.groupCursors.entries.length + bus.handlerCount + 3) =
        (bus.owed p.topic - 1) * (bus.groupCursors.entries.length + bus.handlerCount + 3) +
          (bus.groupCursors.entries.length + bus.handlerCount + 3) := by
      obtain ⟨m, hm⟩ := Nat.exists_eq_succ_of_ne_zero (Nat.ne_of_gt hpos)
      rw [hm, Nat.succ_sub_one, Nat.succ_mul]
    rw [hpay]
    show (bus.owed p.topic - 1) * (bus.groupCursors.entries.length + bus.handlerCount + 3) +
      (bus.groupCursors.entries.length + 1) + (bus.groupCursors.entries.length - p.pos) +
      ((bus.groupHandlers k).length - 0) + 2 < _
    omega

end SupplyChain.InMemoryEventBus
