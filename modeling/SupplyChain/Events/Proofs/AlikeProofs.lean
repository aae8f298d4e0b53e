import Mathlib.Data.List.Forall2
import Mathlib.Data.Option.Basic
import SupplyChain.Events.Proofs.EventBusProofs

/-!
# Proofs: the bus does not look at the events

Two buses whose logs differ only in the events, entry by entry, make the same steps.
-/

namespace SupplyChain

open Collections

variable {E H : Type}

theorem rel_getElem? {R : E → E → Prop} {l l' : List E} (h : List.Forall₂ R l l') (i : Nat) :
    Option.Rel R l[i]? l'[i]? := by
  induction h generalizing i with
  | nil => exact .none
  | cons he _ ih =>
    cases i with
    | zero => exact .some he
    | succ i => exact ih i

/-- The same delivery, of related events. -/
structure Delivery.Alike (R : E → E → Prop) (d d' : Delivery E) : Prop where
  key : d'.key = d.key
  cursor : d'.cursor = d.cursor
  event : R d.event d'.event
  called : d'.called = d.called

/-- The same pass, with related events in hand. -/
structure Pass.Alike (R : E → E → Prop) (p p' : Pass E) : Prop where
  topic : p'.topic = p.topic
  pos : p'.pos = p.pos
  madeProgress : p'.madeProgress = p.madeProgress
  delivery : Option.Rel (Delivery.Alike R) p.delivery p'.delivery

/-- The same call, with related events. -/
structure HandlerCall.Alike (R : E → E → Prop) (c c' : HandlerCall E H) : Prop where
  handler : c'.handler = c.handler
  event : R c.event c'.event

namespace InMemoryEventBus

variable {R : E → E → Prop} {bus bus' : InMemoryEventBus E H} {p p' : Pass E}

/-- The same bus, with related events in its logs. -/
structure Alike (R : E → E → Prop) (bus bus' : InMemoryEventBus E H) : Prop where
  topics : ∀ t, List.Forall₂ R (bus.topics t) (bus'.topics t)
  groupCursors : bus'.groupCursors = bus.groupCursors
  groupHandlers : bus'.groupHandlers = bus.groupHandlers
  draining : Option.Rel (Pass.Alike R) bus.draining bus'.draining

theorem alike_empty : Alike R (empty : InMemoryEventBus E H) empty where
  topics _ := .nil
  groupCursors := rfl
  groupHandlers := rfl
  draining := .none

theorem Alike.publish (h : Alike R bus bus') {e e' : E} (he : R e e') (topic : String) :
    Alike R (bus.publish topic e) (bus'.publish topic e') where
  topics t := by
    rw [topics_publish, topics_publish]
    split
    · exact List.rel_append (h.topics topic) (.cons he .nil)
    · exact h.topics t
  groupCursors := by
    rw [groupCursors_publish, groupCursors_publish, h.groupCursors]
  groupHandlers := by
    rw [groupHandlers_publish, groupHandlers_publish, h.groupHandlers]
  draining := by
    rw [draining_publish, draining_publish]
    obtain ⟨topics, cursors, handlers, draining⟩ := bus
    obtain ⟨topics', cursors', handlers', draining'⟩ := bus'
    cases h.draining with
    | none => exact .some ⟨rfl, rfl, rfl, .none⟩
    | some hp => exact .some hp

theorem Alike.subscribe (h : Alike R bus bus') (topic groupId : String) (handler : H) :
    Alike R (bus.subscribe topic groupId handler) (bus'.subscribe topic groupId handler) where
  topics t := h.topics t
  groupCursors := by
    simp only [InMemoryEventBus.subscribe, h.groupCursors]
  groupHandlers := by
    simp only [InMemoryEventBus.subscribe, h.groupHandlers]
  draining := h.draining

/-- A pass that hands out one event here hands out its counterpart there. -/
theorem Alike.drain (h : Alike R bus bus') (hp : Pass.Alike R p p') :
    Alike R (bus.drain p).1 (bus'.drain p').1 ∧
      Option.Rel (HandlerCall.Alike R) (bus.drain p).2 (bus'.drain p').2 := by
  obtain ⟨topics, cursors, handlers, draining⟩ := bus
  obtain ⟨topics', cursors', handlers', draining'⟩ := bus'
  obtain ⟨topic, pos, progress, delivery⟩ := p
  obtain ⟨topic', pos', progress', delivery'⟩ := p'
  obtain rfl : cursors' = cursors := h.groupCursors
  obtain rfl : handlers' = handlers := h.groupHandlers
  obtain rfl : topic' = topic := hp.topic
  obtain rfl : pos' = pos := hp.pos
  obtain rfl : progress' = progress := hp.madeProgress
  have htopics : ∀ t, List.Forall₂ R (topics t) (topics' t) := h.topics
  unfold InMemoryEventBus.drain
  cases hp.delivery with
  | @some d d' hd =>
    obtain ⟨key, cursor, event, called⟩ := d
    obtain ⟨key', cursor', event', called'⟩ := d'
    obtain rfl : key' = key := hd.key
    obtain rfl : cursor' = cursor := hd.cursor
    obtain rfl : called' = called := hd.called
    dsimp only
    cases (handlers' key')[called']? with
    | some handler =>
      exact ⟨⟨htopics, rfl, rfl, .some ⟨rfl, rfl, rfl, .some ⟨rfl, rfl, hd.event, rfl⟩⟩⟩, .some ⟨rfl, hd.event⟩⟩
    | none => exact ⟨⟨htopics, rfl, rfl, .some ⟨rfl, rfl, rfl, .none⟩⟩, .none⟩
  | none =>
    dsimp only
    cases cursors'.entries[pos']? with
    | none =>
      cases progress' with
      | true => exact ⟨⟨htopics, rfl, rfl, .some ⟨rfl, rfl, rfl, .none⟩⟩, .none⟩
      | false => exact ⟨⟨htopics, rfl, rfl, .none⟩, .none⟩
    | some entry =>
      obtain ⟨key, cursor⟩ := entry
      dsimp only
      split
      · exact ⟨⟨htopics, rfl, rfl, .some ⟨rfl, rfl, rfl, .none⟩⟩, .none⟩
      · have hget := rel_getElem? (htopics topic') cursor
        revert hget
        cases (topics topic')[cursor]? <;> cases (topics' topic')[cursor]? <;> rintro ⟨⟩
        · exact ⟨⟨htopics, rfl, rfl, .some ⟨rfl, rfl, rfl, .none⟩⟩, .none⟩
        · rename_i he
          exact ⟨⟨htopics, rfl, rfl, .some ⟨rfl, rfl, rfl, .some ⟨rfl, rfl, he, rfl⟩⟩⟩, .none⟩

end InMemoryEventBus

end SupplyChain
