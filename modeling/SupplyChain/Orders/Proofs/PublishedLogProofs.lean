import SupplyChain.Async.Proofs.ExecProofs
import SupplyChain.Async.Proofs.OutlineProofs
import SupplyChain.Orders.Outcomes
import SupplyChain.Orders.Proofs.OrderStoreProofs
import SupplyChain.Orders.PublishedLog

/-!
# Proofs: the published log follows the stored history

A transition is stored first and published next, so an execution is at most one entry behind with what it
has published, whatever the others do.
-/

namespace SupplyChain

open Async SagaOrchestrator

/-! ## What an execution does, step by step -/

section Outlines

variable {first : Report} {id : OrderId} {order : Order} {g : Reports}

/-- The outline of an execution that reports. -/
abbrev ReportOutline {α : Type} (first : Report) (Q : α → Reports → Prop) (p : Saga α) (g : Reports) :
    Prop :=
  Outline Reports.note (reportContract first) Q p g

theorem transition_synced (h : g.Synced first id) (status : OrderStatus) (type : EventType)
    (detail : EventDetail) :
    ReportOutline first (fun _ g' => g'.Synced first id) (transition id status type detail) g := by
  obtain ⟨horder, hpublished⟩ := h
  refine ⟨⟨horder, hpublished⟩, fun _ _ => ⟨⟨horder, ?_⟩, fun _ _ => ⟨horder, ?_⟩⟩⟩
  · simp only [Reports.note, hpublished, List.cons_append]
  · simp only [Reports.note, hpublished, List.cons_append]

theorem mustGet_synced (h : g.Synced first id) :
    ReportOutline first (fun order g' => order.id = id ∧ g'.Synced first id) (mustGet id) g := by
  refine ⟨trivial, fun r hr => ?_⟩
  cases r with
  | none => trivial
  | some order => exact ⟨hr, h⟩

/-- A loop over calls that neither store nor publish. -/
theorem silentLoop_synced {β : Type} {f : Reservation → Saga β} (rs : List Reservation)
    (hf : ∀ r g', g'.Synced first id → ReportOutline first (fun _ g'' => g''.Synced first id) (f r) g')
    (h : g.Synced first id) :
    ReportOutline first (fun _ g' => g'.Synced first id) (do for r in rs do let _ ← f r) g :=
  Outline.forIn (J := fun _ _ g' => g'.Synced first id) (fun _ r _ g' hg' => hf r g' hg') rs [] g h

theorem compensate_synced (hid : order.id = id) (h : g.Synced first id) (rs : List Reservation)
    (completed : Completed) :
    ReportOutline first (fun _ g' => g'.Synced first id) (compensate order rs completed) g := by
  subst hid
  unfold compensate
  refine Outline.bind (transition_synced h _ _ _) fun _ g' hg' => ?_
  have hrelease : ReportOutline first (fun _ g'' => g''.Synced first order.id) (releaseAll rs) g' :=
    silentLoop_synced rs (fun _ _ hg'' => ⟨trivial, fun _ _ => hg''⟩) hg'
  obtain ⟨paid, shipped⟩ := completed
  cases shipped <;> cases paid
  · exact hrelease
  · exact ⟨trivial, fun _ _ => hrelease⟩
  · exact ⟨trivial, fun _ _ => hrelease⟩
  · exact ⟨trivial, fun _ _ => ⟨trivial, fun _ _ => hrelease⟩⟩

theorem abort_synced (hid : order.id = id) (h : g.Synced first id) (rs : List Reservation)
    (completed : Completed) (reason : String) (detail : EventDetail) :
    ReportOutline first (fun _ g' => g'.Synced first id) (abort id order rs completed reason detail)
      g := by
  unfold abort
  refine Outline.bind (compensate_synced hid h rs completed) fun _ _ hg => ?_
  rw [hid]
  refine Outline.bind (transition_synced hg _ _ _) fun _ _ hg => ?_
  exact (mustGet_synced hg).mono fun _ _ hget => hget.2

theorem reserveLines_synced (h : g.Synced first id) (lines : List OrderLine) :
    ∀ rs, ReportOutline first (fun _ g' => g'.Synced first id) (reserveLines lines rs) g := by
  induction lines with
  | nil => exact fun rs => h
  | cons line lines ih =>
    refine fun rs => ⟨trivial, fun r _ => ?_⟩
    cases r with
    | rejected _ _ => exact h
    | accepted _ _ => exact ih _

theorem confirm_synced (hid : order.id = id) (h : g.Synced first id) (rs : List Reservation) :
    ReportOutline first (fun _ g' => g'.Synced first id) (confirm id order rs) g := by
  unfold confirm
  refine Outline.bind (silentLoop_synced rs (fun _ _ hg => ⟨trivial, fun _ _ => hg⟩) h) fun _ _ hg => ?_
  rw [hid]
  refine Outline.bind (transition_synced hg _ _ _) fun _ _ hg => ?_
  exact (mustGet_synced hg).mono fun _ _ hget => hget.2

theorem ship_synced (hid : order.id = id) (h : g.Synced first id) (rs : List Reservation) :
    ReportOutline first (fun _ g' => g'.Synced first id) (ship id order rs) g := by
  refine ⟨trivial, fun r _ => ?_⟩
  cases r with
  | failed reason => exact abort_synced hid h rs _ _ _
  | ok shipmentId =>
    have hstep : ReportOutline first (fun _ g' => g'.Synced first id)
        (transition order.id .SHIPPING_SCHEDULED .shippingScheduled
          { shipmentId := some shipmentId }) g :=
      hid ▸ transition_synced (hid ▸ h) _ _ _
    show ReportOutline first _ (transition order.id .SHIPPING_SCHEDULED .shippingScheduled _ >>=
      fun _ => confirm id order rs) g
    exact Outline.bind hstep fun _ _ hg => confirm_synced hid hg rs

theorem pay_synced (hid : order.id = id) (h : g.Synced first id) (rs : List Reservation) :
    ReportOutline first (fun _ g' => g'.Synced first id) (pay id order rs) g := by
  refine ⟨trivial, fun r _ => ?_⟩
  cases r with
  | failed reason => exact abort_synced hid h rs _ _ _
  | ok paymentId =>
    have hstep : ReportOutline first (fun _ g' => g'.Synced first id)
        (transition order.id .PAYMENT_CHARGED .paymentCharged { paymentId := some paymentId }) g :=
      hid ▸ transition_synced (hid ▸ h) _ _ _
    show ReportOutline first _ (transition order.id .PAYMENT_CHARGED .paymentCharged _ >>=
      fun _ => ship id order rs) g
    exact Outline.bind hstep fun _ _ hg => ship_synced hid hg rs

theorem run_synced (h : g.Synced first id) :
    ReportOutline first (fun _ g' => g'.Synced first id) (run id) g := by
  unfold run
  refine Outline.bind (mustGet_synced h) ?_
  rintro order g ⟨hid, hg⟩
  refine Outline.bind (reserveLines_synced hg order.lines []) ?_
  rintro (⟨line, rs⟩ | rs) g hg
  · exact abort_synced hid hg rs _ _ _
  · have hstep : ReportOutline first (fun _ g' => g'.Synced first id)
        (transition order.id .INVENTORY_RESERVED .inventoryReserved { reservations := some rs }) g :=
      hid ▸ transition_synced (hid ▸ hg) _ _ _
    exact Outline.bind hstep fun _ _ hg => pay_synced hid hg rs

/-- An execution publishes that it has created its order, and then each transition; when it returns it has
published all of them. -/
theorem fulfil_synced (r : OrderRequest) :
    ReportOutline r.created (fun _ g => ∃ id, g.Synced r.created id) r.fulfil {} := by
  refine ⟨rfl, fun id _ => ⟨⟨rfl, rfl⟩, fun _ _ => ?_⟩⟩
  have hsynced : Reports.Synced ⟨some id, [], [r.created]⟩ r.created id := ⟨rfl, rfl⟩
  exact (run_synced hsynced).mono fun _ _ hg => ⟨id, hg⟩

end Outlines

/-! ## What the calls do to both logs -/

section Logs

variable {w w' : World} {id x : OrderId}

theorem reportsOf_append (log : List DomainEvent) (e : DomainEvent) :
    reportsOf (log ++ [e]) x = reportsOf log x ++ if e.key = x then [e.report] else [] := by
  unfold reportsOf
  rw [List.filter_append, List.map_append]
  by_cases h : e.key = x <;> simp [h]

theorem participate_quiet {c : Call} (hc : c.writes = false) :
    (participate c w).1.store = w.store ∧ (participate c w).1.published = w.published ∧
      (participate c w).1.uuids = w.uuids ∧ w.drawn ≤ (participate c w).1.drawn := by
  cases c with
  | create _ _ _ _ => cases hc
  | updateStatus _ _ _ _ => cases hc
  | publish _ _ _ => cases hc
  | reserve warehouseId sku qty =>
    simp only [participate]
    split <;> exact ⟨rfl, rfl, rfl, Nat.le_succ _⟩
  | release warehouseId sku id =>
    simp only [participate]
    split <;> exact ⟨rfl, rfl, rfl, Nat.le_refl _⟩
  | commit warehouseId sku id =>
    simp only [participate]
    split <;> exact ⟨rfl, rfl, rfl, Nat.le_refl _⟩
  | _ => exact ⟨rfl, rfl, rfl, Nat.le_refl _⟩

theorem Unused.of_le {uuids : UuidSource} {drawn drawn' : Nat} (h : Unused uuids drawn' id)
    (hle : drawn ≤ drawn') : Unused uuids drawn id := by
  obtain ⟨n, hn, rfl⟩ := h
  exact ⟨n, by omega, rfl⟩

end Logs

/-! ## The invariant -/

section Invariant

variable {ι : Type} [DecidableEq ι] {first : ι → Report} {w w' : World} {gs : ι → Reports} {i : ι}
  {id : OrderId}

omit [DecidableEq ι] in
/-- Nobody else's calls matter, as long as they touch neither log. -/
theorem ReportsInv.quiet (h : ReportsInv first w gs) (hstore : w'.store = w.store)
    (hpublished : w'.published = w.published) (huuids : w'.uuids = w.uuids)
    (hdrawn : w.drawn ≤ w'.drawn) : ReportsInv first w' gs where
  drawn hid hunused := h.drawn hid (huuids ▸ hunused.of_le hdrawn)
  apart := h.apart
  stored hid := by
    rw [hstore]
    exact h.stored hid
  published hid := by
    rw [hpublished]
    exact h.published hid
  fresh hunused := by
    rw [hpublished]
    exact h.fresh (huuids ▸ hunused.of_le hdrawn)
  behind := h.behind

/-- What is noted of an execution's reports does not change which order it is about. -/
theorem order_update (gs : ι → Reports) {g : Reports} (hsame : g.order = (gs i).order) (j : ι) :
    (Function.update gs i g j).order = (gs j).order := by
  by_cases hj : j = i
  · rw [hj, Function.update_self, hsame]
  · rw [Function.update_of_ne hj]

/-- One execution's entries change, and it is at most one behind: so is every execution. -/
theorem ReportsInv.behind_update (h : ReportsInv first w gs) {g : Reports}
    (hg : AtMostOneBehind g.published (first i :: g.stored)) (j : ι) :
    AtMostOneBehind (Function.update gs i g j).published
      (first j :: (Function.update gs i g j).stored) := by
  have hall := Function.forall_update_iff gs
    (fun j (g : Reports) => AtMostOneBehind g.published (first j :: g.stored)) (a := i) (b := g)
  exact hall.mpr ⟨hg, fun k _ => h.behind k⟩ j

/-- The order is stored under an id that was not used before. -/
theorem ReportsInv.create (h : ReportsInv first w gs) (hg : gs i = {}) (order : Order)
    (hid : order.id = w.uuids.draw w.drawn) (hhistory : order.history = []) :
    ReportsInv first { w with store := w.store.create order, drawn := w.drawn + 1 }
      (Function.update gs i { order := some order.id }) := by
  have hunused : Unused w.uuids w.drawn order.id := ⟨w.drawn, Nat.le_refl _, hid⟩
  have hother : ∀ {j x}, j ≠ i → (gs j).order = some x → x ≠ order.id := by
    rintro j x _ hx rfl
    exact h.drawn hx hunused
  refine
    { drawn := ?drawn, apart := ?apart, stored := ?stored, published := ?published,
      fresh := fun hx => h.fresh (hx.of_le (Nat.le_succ _)), behind := ?behind }
  case drawn =>
    intro j x hx hnot
    by_cases hj : j = i
    · subst hj
      rw [Function.update_self, Option.some.injEq] at hx
      obtain ⟨n, hn, hdraw⟩ := hnot
      have heq : n = w.drawn := w.uuids.injective (by rw [← hdraw, ← hx, hid])
      simp only at hn
      omega
    · rw [Function.update_of_ne hj] at hx
      exact h.drawn hx (hnot.of_le (Nat.le_succ _))
  case apart =>
    intro j k x hj hk
    by_cases hji : j = i <;> by_cases hki : k = i
    · rw [hji, hki]
    · subst hji
      rw [Function.update_self, Option.some.injEq] at hj
      rw [Function.update_of_ne hki] at hk
      exact absurd hj.symm (hother hki hk)
    · subst hki
      rw [Function.update_self, Option.some.injEq] at hk
      rw [Function.update_of_ne hji] at hj
      exact absurd hk.symm (hother hji hj)
    · rw [Function.update_of_ne hji] at hj
      rw [Function.update_of_ne hki] at hk
      exact h.apart hj hk
  case stored =>
    intro j x hx
    by_cases hj : j = i
    · subst hj
      rw [Function.update_self, Option.some.injEq] at hx
      subst hx
      refine ⟨order, ?_, ?_⟩
      · exact OrderStore.get_put.trans (if_pos rfl)
      · rw [Function.update_self, Order.reports, hhistory, List.map_nil]
    · rw [Function.update_of_ne hj] at hx ⊢
      obtain ⟨o, hget, hreports⟩ := h.stored hx
      exact ⟨o, (OrderStore.get_put.trans (if_neg (hother hj hx))).trans hget, hreports⟩
  case published =>
    intro j x hx
    by_cases hj : j = i
    · subst hj
      rw [Function.update_self, Option.some.injEq] at hx
      rw [Function.update_self, ← hx]
      exact h.fresh hunused
    · rw [Function.update_of_ne hj] at hx ⊢
      exact h.published hx
  case behind =>
    apply h.behind_update
    exact Or.inr ⟨first i, rfl⟩

/-- A transition is stored: the execution is one entry behind. -/
theorem ReportsInv.store (h : ReportsInv first w gs) (hg : (gs i).Synced (first i) id)
    {status : OrderStatus} {e : OrderEvent} {store' : OrderStore}
    (hst : w.store.updateStatus id status e = some store') :
    ReportsInv first { w with store := store' }
      (Function.update gs i { gs i with stored := (gs i).stored ++ [e.report] }) := by
  obtain ⟨o, hget, hreports⟩ := h.stored hg.order
  obtain ⟨store₁, hst₁, -, hget'⟩ := OrderStore.updateStatus_of_get hget status e
  obtain rfl : store₁ = store' := Option.some.inj (hst₁.symm.trans hst)
  have horder := order_update (i := i) gs
    (g := { gs i with stored := (gs i).stored ++ [e.report] }) rfl
  refine
    { drawn := fun hx => h.drawn ((horder _).symm.trans hx)
      apart := fun hj hk => h.apart ((horder _).symm.trans hj) ((horder _).symm.trans hk)
      stored := ?stored
      published := ?published
      fresh := h.fresh
      behind := ?behind }
  case stored =>
    intro j x hx
    rw [horder] at hx
    by_cases hj : j = i
    · subst hj
      obtain rfl : id = x := Option.some.inj (hg.order.symm.trans hx)
      refine ⟨_, (hget' id).trans (if_pos rfl), ?_⟩
      rw [Function.update_self, Order.reports, List.map_append, ← hreports]
      rfl
    · have hne : x ≠ id := by
        rintro rfl
        exact hj (h.apart hx hg.order)
      obtain ⟨o', ho', hreports'⟩ := h.stored hx
      rw [Function.update_of_ne hj]
      exact ⟨o', ((hget' x).trans (if_neg hne)).trans ho', hreports'⟩
  case published =>
    intro j x hx
    rw [horder] at hx
    by_cases hj : j = i
    · subst hj
      rw [Function.update_self]
      exact h.published hx
    · rw [Function.update_of_ne hj]
      exact h.published hx
  case behind =>
    apply h.behind_update
    refine Or.inr ⟨e.report, ?_⟩
    simp only [hg.published, List.cons_append]

/-- The entry that was missing is published. -/
theorem ReportsInv.publish (h : ReportsInv first w gs) (hid : (gs i).order = some id)
    {e : DomainEvent} (hkey : e.key = id)
    (hbehind : first i :: (gs i).stored = (gs i).published ++ [e.report]) :
    ReportsInv first { w with published := w.published ++ [e] }
      (Function.update gs i { gs i with published := (gs i).published ++ [e.report] }) := by
  have horder := order_update (i := i) gs
    (g := { gs i with published := (gs i).published ++ [e.report] }) rfl
  refine
    { drawn := fun hx => h.drawn ((horder _).symm.trans hx)
      apart := fun hj hk => h.apart ((horder _).symm.trans hj) ((horder _).symm.trans hk)
      stored := ?stored
      published := ?published
      fresh := ?fresh
      behind := ?behind }
  case stored =>
    intro j x hx
    rw [horder] at hx
    by_cases hj : j = i
    · subst hj
      rw [Function.update_self]
      exact h.stored hx
    · rw [Function.update_of_ne hj]
      exact h.stored hx
  case published =>
    intro j x hx
    rw [horder] at hx
    rw [reportsOf_append]
    by_cases hj : j = i
    · subst hj
      obtain rfl : id = x := Option.some.inj (hid.symm.trans hx)
      rw [if_pos hkey, h.published hx, Function.update_self]
    · have hne : ¬ e.key = x := by
        rw [hkey]
        rintro rfl
        exact hj (h.apart hx hid)
      rw [if_neg hne, List.append_nil, h.published hx, Function.update_of_ne hj]
  case fresh =>
    intro x hx
    have hne : ¬ e.key = x := by
      rw [hkey]
      rintro rfl
      exact h.drawn hid hx
    rw [reportsOf_append, if_neg hne, List.append_nil]
    exact h.fresh hx
  case behind =>
    apply h.behind_update
    exact Or.inl hbehind.symm

/-- A transition is stored if the order is known, and nothing happens if it is not. -/
theorem updateStatus_cases {status : OrderStatus} {type : EventType} {detail : EventDetail}
    {result : Except SagaError Unit}
    (hcall : participate (.updateStatus id status type detail) w = (w', result)) :
    (∃ store', w.store.updateStatus id status ⟨type, w.clock, detail⟩ = some store' ∧
      w' = { w with store := store' } ∧ result = .ok ()) ∨ (w' = w ∧ result = .error (.unknownOrder id)) := by
  simp only [participate] at hcall
  cases hst : w.store.updateStatus id status ⟨type, w.clock, detail⟩ with
  | none =>
    rw [hst] at hcall
    obtain ⟨rfl, rfl⟩ := Prod.mk.inj hcall
    exact Or.inr ⟨rfl, rfl⟩
  | some store' =>
    rw [hst] at hcall
    obtain ⟨rfl, rfl⟩ := Prod.mk.inj hcall
    exact Or.inl ⟨store', rfl, rfl, rfl⟩

theorem ReportsInv.ok (h : ReportsInv first w gs) {c : Call}
    (hp : (reportContract (first i)).pre (gs i) c) {r : c.Reply} (hcall : participate c w = (w', .ok r)) :
    (reportContract (first i)).ans (gs i) c r ∧
      ReportsInv first w' (Function.update gs i ((gs i).note c r)) := by
  have hquiet : c.writes = false → (gs i).note c r = gs i →
      ReportsInv first w' (Function.update gs i ((gs i).note c r)) := by
    intro hwrites hnote
    obtain ⟨hstore, hpublished, huuids, hdrawn⟩ := participate_quiet (w := w) hwrites
    rw [hcall] at hstore hpublished huuids hdrawn
    rw [hnote, Function.update_eq_self]
    exact h.quiet hstore hpublished huuids hdrawn
  cases c with
  | create customerId lines amountCents businessId =>
    have hg : gs i = {} := hp
    obtain ⟨rfl, hr⟩ := Prod.mk.inj hcall
    obtain rfl := Except.ok.inj hr
    rw [hg]
    exact ⟨trivial, h.create hg _ rfl rfl⟩
  | updateStatus id status type detail =>
    rcases updateStatus_cases hcall with ⟨store', hst, rfl, -⟩ | ⟨-, hr⟩
    · exact ⟨trivial, h.store hp hst⟩
    · cases hr
  | publish id type payload =>
    obtain ⟨rfl, -⟩ := Prod.mk.inj hcall
    exact ⟨trivial, h.publish hp.1 rfl hp.2⟩
  | get id =>
    refine ⟨?_, hquiet rfl rfl⟩
    obtain ⟨-, hr⟩ := Prod.mk.inj hcall
    obtain rfl := Except.ok.inj hr
    cases hget : w.store.get id with
    | none => trivial
    | some order => exact OrderStore.id_of_get hget
  | _ => exact ⟨trivial, hquiet rfl rfl⟩

theorem reporting_sound (first : ι → Report) :
    Sound (reporting ι) (fun i => reportContract (first i)) (ReportsInv first) where
  ok h hp _ hc := h.ok hp hc
  error {w gs i c w' e} h hp _ hc := by
    refine ⟨trivial, ?_⟩
    have hcall : participate c w = (w', .error e) := hc
    have hquiet : c.writes = false → ReportsInv first w' gs := by
      intro hwrites
      obtain ⟨hstore, hpublished, huuids, hdrawn⟩ := participate_quiet (w := w) hwrites
      rw [hcall] at hstore hpublished huuids hdrawn
      exact h.quiet hstore hpublished huuids hdrawn
    cases c with
    | create _ _ _ _ => cases (Prod.mk.inj hcall).2
    | publish _ _ _ => cases (Prod.mk.inj hcall).2
    | updateStatus id status type detail =>
      rcases updateStatus_cases hcall with ⟨_, _, _, hr⟩ | ⟨rfl, -⟩
      · cases hr
      · exact h
    | _ => exact hquiet rfl
  env h he := h.quiet he.1 he.2.1 he.2.2.1 he.2.2.2

omit [DecidableEq ι] in
theorem reportsInv_start (h : ∀ id, Unused w.uuids w.drawn id → reportsOf w.published id = []) :
    ReportsInv first w fun _ => {} where
  drawn hid := by cases hid
  apart hid := by cases hid
  stored hid := by cases hid
  published hid := by cases hid
  fresh hid := h _ hid
  behind i := Or.inr ⟨first i, rfl⟩

/-- From the moment an order is stored, the published log about it is `order.created` followed by the
types and details of the stored history, less the last at most, and when its execution has returned nothing is
missing. -/
theorem published_follows_stored (requests : ι → OrderRequest)
    (h : ∀ id, Unused w.uuids w.drawn id → reportsOf w.published id = [])
    {P : Pool participants ι SagaError World Reports Order}
    (hr : (reporting ι).Reaches ⟨w, fun _ => {}, fun i => (requests i).fulfil⟩ P) {i : ι} {id : OrderId}
    (hid : (P.aux i).order = some id) :
    ∃ o, P.state.store.get id = some o ∧
      AtMostOneBehind (reportsOf P.state.published id) ((requests i).created :: o.reports) ∧
      ((P.prog i).returned = true →
        reportsOf P.state.published id = (requests i).created :: o.reports) := by
  obtain ⟨hI, hout⟩ := (reporting_sound fun i => (requests i).created).reaches
    (Q := fun i (_ : Order) (g : Reports) => ∃ id, g.Synced (requests i).created id) hr (reportsInv_start h)
    fun i => fulfil_synced (requests i)
  obtain ⟨o, hget, hreports⟩ := hI.stored hid
  have hpublished := hI.published hid
  refine ⟨o, hget, ?_, fun hret => ?_⟩
  · rw [hpublished, hreports]
    exact hI.behind i
  · obtain ⟨order, hprog⟩ := Prog.returned_iff.mp hret
    have hpost := hout i
    rw [hprog] at hpost
    obtain ⟨_, hsynced⟩ := hpost
    rw [hpublished, hreports]
    exact hsynced.published

end Invariant

/-- Two orders for the last two units. -/
def lastUnits (_ : Bool) : OrderRequest := ⟨"customer", [⟨"sku", 2, "warehouse"⟩], 100, none⟩

/-- Both executions, before they start. -/
def lastUnitsPool : Pool participants Bool SagaError World Reports Order :=
  ⟨startWorld .inMemory [] 2 (fun _ => false) fun _ => false, fun _ => {}, fun i => (lastUnits i).fulfil⟩

/-- The first is confirmed and the second cancelled, with their steps interleaved. -/
def lastUnitsDone : Pool participants Bool SagaError World Reports Order :=
  (reporting Bool).schedule lastUnitsPool
    ((List.replicate 7 [true, false]).flatten ++ List.replicate 9 true ++ List.replicate 9 false)

theorem lastUnits_published : ∃ o, lastUnitsDone.state.store.get "xx" = some o ∧
    reportsOf lastUnitsDone.state.published "xx" = (lastUnits false).created :: o.reports := by
  have hreach : (reporting Bool).Reaches lastUnitsPool lastUnitsDone :=
    reaches_schedule (fun _ _ _ _ => trivial) _ _
  obtain ⟨o, hget, -, hdone⟩ := published_follows_stored lastUnits (fun _ _ => rfl) hreach
    (show (lastUnitsDone.aux false).order = some "xx" by decide +kernel)
  exact ⟨o, hget, hdone (by decide +kernel)⟩

/-- Between the two writes of `createOrder` the order is stored and nothing is published about it. -/
theorem stored_before_created : ¬ ∀ (requests : Bool → OrderRequest) (w : World),
    (∀ id, Unused w.uuids w.drawn id → reportsOf w.published id = []) →
    ∀ (P : Pool participants Bool SagaError World Reports Order),
      (reporting Bool).Reaches ⟨w, fun _ => {}, fun i => (requests i).fulfil⟩ P →
      ∀ i id, (P.aux i).order = some id → ∃ o log, P.state.store.get id = some o ∧
        reportsOf P.state.published id = (requests i).created :: log ∧
        AtMostOneBehind log o.reports := by
  intro hall
  obtain ⟨o, log, -, hlog, -⟩ := hall lastUnits lastUnitsPool.state (fun _ _ => rfl)
    ((reporting Bool).schedule lastUnitsPool [true]) (reaches_schedule (fun _ _ _ _ => trivial) _ _)
    true "x" (by decide +kernel)
  have hnone : reportsOf ((reporting Bool).schedule lastUnitsPool [true]).state.published "x" = [] := by
    decide +kernel
  rw [hnone] at hlog
  cases hlog

end SupplyChain
