import SupplyChain.Async.Proofs.OutlineProofs
import SupplyChain.Orders.Progress

/-!
# Proofs: the outline of `run`

`run` meets its contract: whatever the participants reply, it goes through the stages of `Stage`, awaits
only calls that `Allowed` lists, never throws, and returns settled.
-/

namespace SupplyChain

open Async SagaOrchestrator

/-- The outline of a program of `run` of the order `o`. -/
abbrev RunOutline {α : Type} (f : Faults) (o : Order) (Q : α → Progress → Prop) (p : Saga α)
    (g : Progress) : Prop :=
  Outline Progress.note (runContract f o) Q p g

variable {f : Faults}

theorem Settled.seen {o : Order} {g : Progress} (h : Settled f o g) (r : Option Order) :
    Settled f o { g with seen := r } := by
  cases h with
  | confirmed h hg => exact .confirmed h ⟨hg.1, hg.2, hg.3, hg.4, hg.5⟩
  | cancelled h hg => exact .cancelled h ⟨hg.1, hg.2, hg.3, hg.4, hg.5⟩

theorem Failed.uncharged {o : Order} {bs : List Booking} {before : List Write} {charged : Bool}
    (h : Failed f o bs before charged) : Failed f o bs before false := by
  cases h with
  | inventory hf h => exact .inventory hf h
  | payment hf h => exact .payment hf h
  | shipping hf h paymentId => exact .shipping hf h paymentId false

/-- A failure after which the charge still stands is a failure of shipping. -/
theorem Failed.of_charged {o : Order} {bs : List Booking} {before : List Write}
    (h : Failed f o bs before true) : ∃ paymentId, before = [.reserved bs, .paid paymentId] := by
  cases h with
  | shipping _ _ paymentId => exact ⟨paymentId, rfl⟩

theorem Progress.Is.append {g : Progress} {ws : List Write} {charged shipped : Bool}
    {released committed : List ReservationId} (hg : g.Is ws charged shipped released committed)
    (w : Write) :
    Progress.Is { g with written := g.written ++ [w] } (ws ++ [w]) charged shipped released
      committed :=
  ⟨by simp [hg.1], hg.2, hg.3, hg.4, hg.5⟩

variable {o order : Order} {g : Progress}

/-! ## The parts of `run` -/

theorem transition_outline {status : OrderStatus} {type : EventType} {detail : EventDetail}
    {g' : Progress} (hs : Stage f o g) (hn : Next f o g ⟨status, type, detail⟩)
    (hg' : g' = { g with written := g.written ++ [⟨status, type, detail⟩] }) (hs' : Stage f o g') :
    RunOutline f o (fun _ g₁ => g₁ = g') (transition o.id status type detail) g := by
  subst hg'
  refine ⟨⟨hs, rfl, hn⟩, fun _ _ => ⟨⟨hs', rfl, status, ?_⟩, fun _ _ => rfl⟩⟩
  simp [Progress.note]

theorem mustGet_outline (h : Settled f o g) :
    RunOutline f o (fun _ => Settled f o) (mustGet o.id) g := by
  refine ⟨⟨(.settled h), rfl, Or.inr h⟩, ?_⟩
  rintro r ⟨o', rfl, -⟩
  exact h.seen _

theorem releaseAll_outline {before : List Write} (h : Failed f o g.taken before false)
    (hg : g.Is (before ++ [.compensating]) false false [] []) :
    RunOutline f o
      (fun _ g' => g'.taken = g.taken ∧
        g'.Is (before ++ [.compensating]) false false (g.taken.map Booking.id) [])
      (releaseAll (g.taken.map Booking.reservation)) g := by
  refine Outline.mono (Outline.forIn (C := runContract f o)
    (f := fun r : Reservation => await (.release r.warehouseId r.sku r.reservationId))
    (J := fun done todo g' => g'.taken = g.taken ∧
      g.taken.map Booking.reservation = done ++ todo ∧
      g'.Is (before ++ [.compensating]) false false (done.map Reservation.reservationId) [])
    ?_ (g.taken.map Booking.reservation) [] g ⟨rfl, rfl, hg⟩) fun _ g' hg' => ⟨hg'.1, ?_⟩
  rotate_left
  · simpa [Function.comp_def] using hg'.2.2
  · rintro done r rest g' ⟨ht, hsplit, hI⟩
    obtain ⟨bs, cs, htaken, rfl, hcs⟩ := List.map_eq_append_iff.mp hsplit
    obtain ⟨b, cs, rfl, rfl, rfl⟩ := List.map_eq_cons_iff.mp hcs
    refine ⟨⟨.undoing (ht ▸ h) (ht ▸ htaken) ?_, bs, b, cs, ht ▸ htaken, rfl, before, ?_⟩, ?_⟩
    · simpa [Function.comp_def] using hI
    · simpa [Function.comp_def] using hI
    · intro r _
      refine ⟨ht, by simp [htaken], hI.1, hI.2, hI.3, ?_, hI.5⟩
      simp [Progress.note, hI.4]

/-- `compensate`, as `run` calls it: everything taken is released and the charge is refunded. -/
theorem compensate_outline {before : List Write} {charged : Bool} (hid : order.id = o.id)
    (h : Failed f o g.taken before charged) (hs : Stage f o g) (hg : g.Is before charged false [] []) :
    RunOutline f o
      (fun _ g' => g'.taken = g.taken ∧
        g'.Is (before ++ [.compensating]) false false (g.taken.map Booking.id) [])
      (compensate order (g.taken.map Booking.reservation) { paid := charged, shipped := false }) g := by
  unfold compensate
  rw [hid]
  let g₁ : Progress := { g with written := g.written ++ [.compensating] }
  have hI : g₁.Is (before ++ [.compensating]) charged false [] [] := hg.append _
  have hs' : Stage f o g₁ := .undoing h (List.nil_append g.taken).symm hI
  refine Outline.bind (transition_outline hs (.compensating h hg) rfl hs') ?_
  rintro _ g' rfl
  cases charged with
  | false => exact releaseAll_outline (g := g₁) h hI
  | true =>
    obtain ⟨paymentId, rfl⟩ := h.of_charged
    refine ⟨⟨hs', rfl, paymentId, hI⟩, fun _ _ => ?_⟩
    exact releaseAll_outline (g := { g₁ with charged := false, refunded := true }) h.uncharged
      ⟨hI.1, rfl, hI.3, hI.4, hI.5⟩

/-- Every failing exit of `run` ends settled. -/
theorem abort_outline {before : List Write} {charged : Bool} {reason : String} {detail : EventDetail}
    (hid : order.id = o.id) (h : Failed f o g.taken before charged) (hs : Stage f o g)
    (hg : g.Is before charged false [] []) :
    RunOutline f o (fun _ => Settled f o)
      (abort o.id order (g.taken.map Booking.reservation) { paid := charged, shipped := false }
        reason detail) g := by
  unfold abort fail
  refine Outline.bind (compensate_outline hid h hs hg) ?_
  rintro _ g₁ ⟨ht, hI⟩
  rw [hid]
  have h' : Failed f o g₁.taken before false := ht ▸ h.uncharged
  have hI' : g₁.Is (before ++ [.compensating]) false false (g₁.taken.map Booking.id) [] := ht ▸ hI
  let last := Write.cancelled (EventDetail.spread { reason := some reason } detail)
  have hlast := hI'.append last
  rw [List.append_assoc] at hlast
  have hend : Settled f o { g₁ with written := g₁.written ++ [last] } := .cancelled h' hlast
  refine Outline.bind (transition_outline (.undoing h' (List.append_nil _).symm hI')
    (.cancelled h' hI' _) rfl (.settled hend)) ?_
  rintro _ g₂ rfl
  exact mustGet_outline hend

/-! ## The loop of step 4 and the steps after a success -/

theorem commitAll_outline {paymentId shipmentId : String} (h : Fills o.lines g.taken)
    (hg : g.Is [.reserved g.taken, .paid paymentId, .scheduled shipmentId] true true [] []) :
    RunOutline f o
      (fun _ g' => g'.taken = g.taken ∧
        g'.Is [.reserved g.taken, .paid paymentId, .scheduled shipmentId] true true []
          (g.taken.map Booking.id))
      (commitAll (g.taken.map Booking.reservation)) g := by
  refine Outline.mono (Outline.forIn (C := runContract f o)
    (f := fun r : Reservation => await (.commit r.warehouseId r.sku r.reservationId))
    (J := fun done todo g' => g'.taken = g.taken ∧
      g.taken.map Booking.reservation = done ++ todo ∧
      g'.Is [.reserved g.taken, .paid paymentId, .scheduled shipmentId] true true []
        (done.map Reservation.reservationId))
    ?_ (g.taken.map Booking.reservation) [] g ⟨rfl, rfl, hg⟩) fun _ g' hg' => ⟨hg'.1, ?_⟩
  rotate_left
  · simpa [Function.comp_def] using hg'.2.2
  · rintro done r rest g' ⟨ht, hsplit, hI⟩
    obtain ⟨bs, cs, htaken, rfl, hcs⟩ := List.map_eq_append_iff.mp hsplit
    obtain ⟨b, cs, rfl, rfl, rfl⟩ := List.map_eq_cons_iff.mp hcs
    rw [← ht] at h hI htaken
    have hI' : g'.Is [.reserved g'.taken, .paid paymentId, .scheduled shipmentId] true true []
        (bs.map Booking.id) := by
      simpa [Function.comp_def] using hI
    refine ⟨⟨.scheduled h htaken hI', bs, b, cs, htaken, rfl, paymentId, shipmentId, hI'⟩, ?_⟩
    intro r _
    refine ⟨ht, by simp [← ht, htaken], ht ▸ hI.1, hI.2, hI.3, hI.4, ?_⟩
    simp [Progress.note, hI.5]

theorem confirm_outline {paymentId shipmentId : String} (hid : order.id = o.id)
    (h : Fills o.lines g.taken)
    (hg : g.Is [.reserved g.taken, .paid paymentId, .scheduled shipmentId] true true [] []) :
    RunOutline f o (fun _ => Settled f o) (confirm o.id order (g.taken.map Booking.reservation)) g := by
  unfold confirm
  refine Outline.bind (commitAll_outline h hg) ?_
  rintro _ g₁ ⟨ht, hI⟩
  rw [hid]
  rw [← ht] at h hI
  have hend : Settled f o { g₁ with written := g₁.written ++ [.confirmed] } :=
    .confirmed h (hI.append _)
  refine Outline.bind (transition_outline (.scheduled h (List.append_nil _).symm hI) (.confirmed hI)
    rfl (.settled hend)) ?_
  rintro _ g₂ rfl
  exact mustGet_outline hend

theorem ship_outline {paymentId : String} (hid : order.id = o.id) (h : Fills o.lines g.taken)
    (hg : g.Is [.reserved g.taken, .paid paymentId] true false [] []) :
    RunOutline f o (fun _ => Settled f o) (ship o.id order (g.taken.map Booking.reservation)) g := by
  unfold ship
  rw [hid]
  refine ⟨⟨.paid h hg, rfl, paymentId, hg⟩, ?_⟩
  rintro (shipmentId | reason) hf
  · let g₁ : Progress := { g with shipped := true }
    have hI : g₁.Is [.reserved g.taken, .paid paymentId] true true [] [] :=
      ⟨hg.1, hg.2, rfl, hg.4, hg.5⟩
    show RunOutline f o _ (transition o.id .SHIPPING_SCHEDULED .shippingScheduled
      { shipmentId := some shipmentId } >>= fun _ => confirm o.id order _) g₁
    refine Outline.bind (transition_outline (g := g₁) (.paid h hI) (.scheduled hI shipmentId) rfl
      (.scheduled h (List.nil_append g.taken).symm (hI.append _))) ?_
    rintro _ g₂ rfl
    exact confirm_outline (g := { g₁ with written := g₁.written ++ [.scheduled shipmentId] }) hid h
      (hI.append _)
  · exact abort_outline hid (.shipping hf h paymentId true) (.paid h hg) hg

theorem pay_outline (hid : order.id = o.id) (h : Fills o.lines g.taken)
    (hg : g.Is [.reserved g.taken] false false [] []) :
    RunOutline f o (fun _ => Settled f o) (pay o.id order (g.taken.map Booking.reservation)) g := by
  unfold pay
  rw [hid]
  refine ⟨⟨.reserved h hg, rfl, hg⟩, ?_⟩
  rintro (paymentId | reason) hf
  · let g₁ : Progress := { g with charged := true }
    have hI : g₁.Is [.reserved g.taken] true false [] [] := ⟨hg.1, rfl, hg.3, hg.4, hg.5⟩
    show RunOutline f o _ (transition o.id .PAYMENT_CHARGED .paymentCharged
      { paymentId := some paymentId } >>= fun _ => ship o.id order _) g₁
    refine Outline.bind (transition_outline (g := g₁) (.reserved h hI) (.paid hI paymentId) rfl
      (.paid h (hI.append _))) ?_
    rintro _ g₂ rfl
    exact ship_outline (g := { g₁ with written := g₁.written ++ [.paid paymentId] }) hid h
      (hI.append _)
  · exact abort_outline hid (.payment hf h) (.reserved h hg) hg

/-! ## The reservation loop and `run` -/

/-- Step 1 of `run` reserves the lines from the first to the last, and stops at a rejected one. -/
theorem reserveLines_outline (todo : List OrderLine) :
    ∀ {g : Progress}, (∃ lines, o.lines = lines ++ todo ∧ Fills lines g.taken) →
      g.Is [] false false [] [] →
      RunOutline f o
        (fun result g' => g'.Is [] false false [] [] ∧
          match result with
          | .ok reservations =>
            reservations = g'.taken.map Booking.reservation ∧ Fills o.lines g'.taken
          | .error (_, reservations) => reservations = g'.taken.map Booking.reservation ∧ f.short ∧
            ∃ lines todo, o.lines = lines ++ todo ∧ Fills lines g'.taken)
        (reserveLines todo (g.taken.map Booking.reservation)) g := by
  induction todo with
  | nil =>
    rintro g ⟨lines, hlines, hfill⟩ hg
    rw [List.append_nil] at hlines
    exact ⟨hg, rfl, hlines ▸ hfill⟩
  | cons line rest ih =>
    rintro g ⟨lines, hlines, hfill⟩ hg
    refine ⟨⟨.reserving ⟨lines, hlines, hfill⟩ hg, hg, lines, rest, hlines, hfill⟩, ?_⟩
    rintro (⟨id, remaining⟩ | ⟨reason, remaining⟩) hr
    · let b : Booking := ⟨⟨line.warehouseId, line.sku, id⟩, line.qty⟩
      have hfill' : Fills (lines ++ [line]) (g.taken ++ [b]) := by
        simp [Fills, ← hfill.symm, b]
      have hlines' : o.lines = (lines ++ [line]) ++ rest := by simp [hlines]
      have hrest := ih (g := { g with taken := g.taken ++ [b] }) ⟨_, hlines', hfill'⟩
        ⟨hg.1, hg.2, hg.3, hg.4, hg.5⟩
      rw [List.map_append] at hrest
      exact hrest
    · exact ⟨hg, rfl, hr, lines, line :: rest, hlines, hfill⟩

/-- `run` of the order `o`, from any record of it with the same lines, meets its contract and returns
settled. -/
theorem run_outline (f : Faults) (o : Order) : RunOutline f o (fun _ => Settled f o) (run o.id) {} := by
  have hg : Progress.Is {} [] false false [] [] := ⟨rfl, rfl, rfl, rfl, rfl⟩
  have hfill : ∃ lines, o.lines = lines ++ o.lines ∧ Fills lines [] := ⟨[], rfl, rfl⟩
  unfold run
  refine ⟨⟨.reserving hfill hg, rfl, Or.inl ⟨rfl, rfl⟩⟩, ?_⟩
  rintro _ ⟨order, rfl, hid, hlines⟩
  let g₁ : Progress := { seen := some order }
  have hloop := reserveLines_outline (f := f) (o := o) (g := g₁) order.lines ⟨[], hlines.symm, rfl⟩
    ⟨rfl, rfl, rfl, rfl, rfl⟩
  refine Outline.bind (p := reserveLines order.lines []) (g := g₁) hloop ?_
  rintro (⟨line, reservations⟩ | reservations) g₂ ⟨hI, rfl, h⟩
  · obtain ⟨hf, lines, todo, hsplit, hfill₂⟩ := h
    exact abort_outline hid (.inventory hf ⟨lines, hsplit, hfill₂⟩)
      (.reserving ⟨lines, hsplit, hfill₂⟩ hI) hI
  · refine Outline.bind (hid ▸ transition_outline (.reserving ⟨o.lines, (List.append_nil _).symm, h⟩ hI)
      (.reserved h hI) rfl (.reserved h (hI.append _))) ?_
    rintro _ g₃ rfl
    exact pay_outline (g := { g₂ with written := g₂.written ++ [.reserved g₂.taken] }) hid h
      (hI.append _)

end SupplyChain
