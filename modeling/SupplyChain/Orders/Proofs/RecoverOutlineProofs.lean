import SupplyChain.Async.Proofs.OutlineProofs
import SupplyChain.Orders.Recovery

/-!
# Proofs: the outline of `recoverStuck`
-/

namespace SupplyChain

open Async SagaOrchestrator

variable {id : OrderId} {Known : Progress → Order → Prop} {order entry : Order} {g : Progress}

/-- The outline of a program of a recovery of the order `id`. -/
abbrev RecoverOutline {α : Type} (id : OrderId) (Known : Progress → Order → Prop)
    (Q : α → Progress → Prop) (p : Saga α) (g : Progress) : Prop :=
  Outline Progress.note (recoverContract id Known) Q p g

theorem recoverTransition_outline {ws : List Write} {rs : List ReservationId} {completed : Completed}
    {status : OrderStatus} {type : EventType} {detail : EventDetail} (hg : g.Recovers entry ws rs)
    (hback : g.GaveBack completed)
    (hnext : ws = [] ∧ Write.mk status type detail = .compensating ∨
      ws = [.compensating] ∧ ∃ d, Write.mk status type detail = .cancelled d) :
    RecoverOutline id Known
      (fun _ g' => g'.Recovers entry (ws ++ [⟨status, type, detail⟩]) rs ∧ g'.GaveBack completed)
      (transition id status type detail) g := by
  refine ⟨⟨hg.taken, rfl, hg.written ▸ hnext⟩, fun _ _ => ⟨⟨hg.taken, trivial⟩, fun _ _ => ?_⟩⟩
  exact ⟨⟨hg.taken, hg.seen, by simp [Progress.note, hg.written], hg.released⟩, hback⟩

theorem recoverRelease_outline {completed : Completed} {rs : List Reservation}
    (hrs : ∀ r ∈ rs, r ∈ reservationsFromHistory entry) (hg : g.Recovers entry [.compensating] [])
    (hback : g.GaveBack completed) :
    RecoverOutline id Known
      (fun _ g' => g'.Recovers entry [.compensating] (rs.map Reservation.reservationId) ∧
        g'.GaveBack completed) (releaseAll rs) g := by
  refine Outline.mono (Outline.forIn (C := recoverContract id Known)
    (f := fun r : Reservation => await (.release r.warehouseId r.sku r.reservationId))
    (J := fun done todo g' => (∀ r ∈ todo, r ∈ reservationsFromHistory entry) ∧
      g'.Recovers entry [.compensating] (done.map Reservation.reservationId) ∧ g'.GaveBack completed)
    ?_ rs [] g ⟨hrs, hg, hback⟩) fun _ g' hg' => ?_
  · rintro done r rest g' ⟨hmem, hrec, hback'⟩
    refine ⟨⟨hrec.taken, entry, hrec.seen, hmem r List.mem_cons_self⟩, fun _ _ => ?_⟩
    refine ⟨fun s hs => hmem s (List.mem_cons_of_mem _ hs), ?_, hback'⟩
    exact ⟨hrec.taken, hrec.seen, hrec.written, by simp [Progress.note, hrec.released]⟩
  · simpa using hg'.2

theorem recoverCompensate_outline (hid : order.id = id) (hg : g.Recovers entry [] []) :
    RecoverOutline id Known
      (fun _ g' => g'.Recovers entry [.compensating]
          ((reservationsFromHistory entry).map Reservation.reservationId) ∧
        g'.GaveBack (completedFromHistory entry))
      (compensate order (reservationsFromHistory entry) (completedFromHistory entry)) g := by
  unfold compensate
  rw [hid]
  have hnone : g.GaveBack ⟨false, false⟩ := ⟨fun h => Bool.noConfusion h, fun h => Bool.noConfusion h⟩
  refine Outline.bind (recoverTransition_outline hg hnone (Or.inl ⟨rfl, rfl⟩)) ?_
  rintro _ g₁ ⟨hg₁, -⟩
  have hrelease : ∀ g' : Progress, g'.Recovers entry [.compensating] [] →
      g'.GaveBack (completedFromHistory entry) → RecoverOutline id Known
        (fun _ g' => g'.Recovers entry [.compensating]
            ((reservationsFromHistory entry).map Reservation.reservationId) ∧
          g'.GaveBack (completedFromHistory entry))
        (releaseAll (reservationsFromHistory entry)) g' :=
    fun g' hg' hback => recoverRelease_outline (fun r hr => hr) hg' hback
  cases hship : (completedFromHistory entry).shipped <;>
    cases hpaid : (completedFromHistory entry).paid
  · exact hrelease g₁ hg₁ ⟨fun h => by simp [hpaid] at h, fun h => by simp [hship] at h⟩
  · refine ⟨⟨hg₁.taken, rfl, entry, hg₁.seen, hpaid⟩, fun _ _ => ?_⟩
    exact hrelease _ ⟨hg₁.taken, hg₁.seen, hg₁.written, hg₁.released⟩
      ⟨fun _ => rfl, fun h => by simp [hship] at h⟩
  · refine ⟨⟨hg₁.taken, rfl, entry, hg₁.seen, hship⟩, fun _ _ => ?_⟩
    exact hrelease _ ⟨hg₁.taken, hg₁.seen, hg₁.written, hg₁.released⟩
      ⟨fun h => by simp [hpaid] at h, fun _ => rfl⟩
  · refine ⟨⟨hg₁.taken, rfl, entry, hg₁.seen, hship⟩, fun _ _ => ?_⟩
    refine ⟨⟨hg₁.taken, rfl, entry, hg₁.seen, hpaid⟩, fun _ _ => ?_⟩
    exact hrelease _ ⟨hg₁.taken, hg₁.seen, hg₁.written, hg₁.released⟩
      ⟨fun _ => rfl, fun _ => rfl⟩

/-- `recoverStuck`, started from a known snapshot, meets its contract. -/
theorem recoverStuck_outline (hid : order.id = id) (hk : Known g order) (htaken : g.taken = [])
    (hseen : g.seen = none) (hwritten : g.written = []) (hreleased : g.released = []) :
    RecoverOutline id Known (fun _ => Progress.HasRecovered) (recoverStuck order) g := by
  unfold recoverStuck
  refine ⟨⟨htaken, hid, fun _ => hk⟩, fun entry _ => ?_⟩
  have hg : (g.note (.fields order) entry).Recovers entry [] [] :=
    ⟨htaken, by simp [Progress.note, hseen], hwritten, hreleased⟩
  cases hterm : isTerminalStatus entry.status with
  | true =>
    show RecoverOutline id Known _ (if isTerminalStatus entry.status = true then _ else _) _
    rw [if_pos hterm]
    exact .leftAlone hterm hg
  | false =>
    show RecoverOutline id Known _ (if isTerminalStatus entry.status = true then _ else _) _
    rw [if_neg (by simp [hterm])]
    refine Outline.bind (recoverCompensate_outline hid hg) ?_
    rintro _ g₁ ⟨hg₁, hback⟩
    refine ⟨⟨hg₁.taken, hid, fun h => by simp [hg₁.seen] at h⟩, fun later _ => ?_⟩
    have hg₂ : (g₁.note (.fields order) later).Recovers entry [.compensating]
        ((reservationsFromHistory entry).map Reservation.reservationId) :=
      ⟨hg₁.taken, by simp [Progress.note, hg₁.seen], hg₁.written, hg₁.released⟩
    let detail := EventDetail.spread { reason := some "RECOVERED_AFTER_RESTART" }
      { previousStatus := some later.status }
    show RecoverOutline id Known _
      (transition order.id .CANCELLED .cancelled detail >>= fun _ => mustGet order.id) _
    rw [hid]
    refine Outline.bind (recoverTransition_outline hg₂ hback (Or.inr ⟨rfl, detail, rfl⟩)) ?_
    rintro _ g₃ ⟨hg₃, hback₃⟩
    refine ⟨⟨hg₃.taken, rfl, by simp [hg₃.seen]⟩, fun r hr => ?_⟩
    obtain ⟨o, rfl⟩ := Option.isSome_iff_exists.mp hr
    have hend : (g₃.note (.get id) (some o)).Recovers entry [.compensating, .cancelled detail]
        ((reservationsFromHistory entry).map Reservation.reservationId) :=
      ⟨hg₃.taken, by simp [Progress.note, hg₃.seen], hg₃.written, hg₃.released⟩
    exact .recovered hterm hend hback₃

end SupplyChain
