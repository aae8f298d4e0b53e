import SupplyChain.Async.Proofs.ExecProofs
import SupplyChain.Orders.Proofs.CrashProofs
import SupplyChain.Orders.Proofs.OrderStoreProofs
import SupplyChain.Orders.Terminal

/-!
# Proofs: when terminal statuses are absorbing

The store accepts any transition of any order. A terminal status stays as long as nobody writes an order
that others have written since, and no run starts on an order that is terminal.
-/

namespace SupplyChain

open Async SagaOrchestrator

/-! ## What an execution knows after a call -/

namespace Sights

variable {g : Sights} {order : Order} {id x : OrderId}

theorem look_of_wrote {v : Sight} (h : g order.id = some v) (hw : v.wrote = true) :
    g.look order = g := by
  rw [look, h]
  simp [hw]

theorem look_of_unwritten (h : (g order.id).any Sight.wrote = false) :
    g.look order = Function.update g order.id (some order.sight) := by
  rw [look, h]
  rfl

theorem look_of_ne (h : x ≠ order.id) : g.look order x = g x := by
  unfold look
  split
  · rfl
  · rw [Function.update_of_ne h]

/-- After a look the sight is the one before or that of the record. -/
theorem look_cases {v : Sight} (h : g.look order x = some v) :
    g x = some v ∨ x = order.id ∧ v = order.sight := by
  by_cases hx : x = order.id
  · subst hx
    unfold look at h
    split at h
    · exact Or.inl h
    · rw [Function.update_self] at h
      exact Or.inr ⟨rfl, (Option.some.inj h).symm⟩
  · rw [look_of_ne hx] at h
    exact Or.inl h

theorem foldl_look_cases {v : Sight} (os : List Order) :
    ∀ g : Sights, os.foldl look g x = some v →
      g x = some v ∨ ∃ order ∈ os, x = order.id ∧ v = order.sight := by
  induction os with
  | nil => exact fun g h => Or.inl h
  | cons order os ih =>
    intro g h
    rcases ih (g.look order) h with h | ⟨order', hmem, hx⟩
    · rcases look_cases h with h | hx
      · exact Or.inl h
      · exact Or.inr ⟨order, List.mem_cons_self, hx⟩
    · exact Or.inr ⟨order', List.mem_cons_of_mem _ hmem, hx⟩

theorem foldl_look_of_notMem (os : List Order) :
    ∀ g : Sights, x ∉ os.map Order.id → os.foldl look g x = g x := by
  induction os with
  | nil => exact fun g _ => rfl
  | cons order os ih =>
    intro g hx
    rw [List.map_cons, List.mem_cons, not_or] at hx
    rw [List.foldl_cons, ih _ hx.2, look_of_ne hx.1]

/-- The first look at a list of orders shows each as it is. -/
theorem foldl_look_of_mem (os : List Order) :
    ∀ g : Sights, (os.map Order.id).Nodup → (∀ order ∈ os, g order.id = none) →
      ∀ order ∈ os, os.foldl look g order.id = some order.sight := by
  induction os with
  | nil => exact fun g _ _ _ hmem => by cases hmem
  | cons first os ih =>
    intro g hnodup hnone order hmem
    rw [List.map_cons, List.nodup_cons] at hnodup
    have hfirst : g first.id = none := hnone first List.mem_cons_self
    rw [List.foldl_cons]
    rcases List.mem_cons.mp hmem with rfl | hmem
    · rw [foldl_look_of_notMem os _ hnodup.1, look_of_unwritten (by rw [hfirst]; rfl),
        Function.update_self]
    · refine ih _ hnodup.2 (fun order' hmem' => ?_) order hmem
      have hne : order'.id ≠ first.id := fun heq => hnodup.1 (heq ▸ List.mem_map_of_mem hmem')
      rw [look_of_ne hne]
      exact hnone order' (List.mem_cons_of_mem _ hmem')

end Sights

/-! ## Outlines -/

section Outlines

variable {job : Job} {g : Sights} {id : OrderId} {order : Order}

/-- The outline of a job. -/
abbrev JobOutline {α : Type} (job : Job) (Q : α → Sights → Prop) (p : Saga α) (g : Sights) : Prop :=
  Outline Sights.note (jobContract job) Q p g

/-- The execution has stored a transition to the status. -/
def Sights.Stored (g : Sights) (id : OrderId) (status : OrderStatus) (g' : Sights) : Prop :=
  ∃ n, g' = Function.update g id (some ⟨status, n, true⟩)

theorem Sights.Stored.active {g' : Sights} {status : OrderStatus} (h : g.Stored id status g')
    (hs : isTerminalStatus status = false) : g'.Active id := by
  obtain ⟨n, rfl⟩ := h
  exact ⟨_, Function.update_self .., hs⟩

theorem Sights.Stored.of_ne {g' : Sights} {status : OrderStatus} (h : g.Stored id status g')
    {x : OrderId} (hx : x ≠ id) : g' x = g x := by
  obtain ⟨n, rfl⟩ := h
  exact Function.update_of_ne hx _ _

theorem Sights.Stored.wrote {g' : Sights} {status : OrderStatus} (h : g.Stored id status g') :
    ∃ v, g' id = some v ∧ v.wrote = true := by
  obtain ⟨n, rfl⟩ := h
  exact ⟨_, Function.update_self .., rfl⟩

theorem transition_job (h : g.Active id) (status : OrderStatus) (type : EventType)
    (detail : EventDetail) :
    JobOutline job (fun _ g' => g.Stored id status g') (transition id status type detail) g :=
  ⟨h, fun _ _ => ⟨trivial, fun _ _ => ⟨_, rfl⟩⟩⟩

theorem mustGet_job : JobOutline job (fun _ g' => ∀ x, x ≠ id → g' x = g x) (mustGet id) g := by
  refine ⟨trivial, fun r hr => ?_⟩
  cases r with
  | none => trivial
  | some order =>
    intro x hx
    exact Sights.look_of_ne fun heq => hx (heq.trans hr.1)

/-- A loop over calls that no sight depends on. -/
theorem silentLoop_job {β : Type} {f : Reservation → Saga β} (rs : List Reservation)
    (hf : ∀ r g, JobOutline job (fun _ g' => g' = g) (f r) g) :
    JobOutline job (fun _ g' => g' = g) (do for r in rs do let _ ← f r) g :=
  Outline.forIn (J := fun _ _ g' => g' = g) (fun _ r _ _ hg => hg ▸ hf r g) rs [] g rfl

theorem releaseAll_job (rs : List Reservation) :
    JobOutline job (fun _ g' => g' = g) (releaseAll rs) g :=
  silentLoop_job rs fun _ _ => ⟨trivial, fun _ _ => rfl⟩

theorem commitAll_job (rs : List Reservation) :
    JobOutline job (fun _ g' => g' = g) (commitAll rs) g :=
  silentLoop_job rs fun _ _ => ⟨trivial, fun _ _ => rfl⟩

theorem compensate_job (h : g.Active order.id) (rs : List Reservation) (completed : Completed) :
    JobOutline job (fun _ g' => g.Stored order.id .COMPENSATING g') (compensate order rs completed)
      g := by
  unfold compensate
  refine Outline.bind (transition_job h .COMPENSATING .compensating {}) fun _ g' hg' => ?_
  have hrelease : JobOutline job (fun _ g' => g.Stored order.id .COMPENSATING g') (releaseAll rs) g' :=
    Outline.mono (releaseAll_job rs) fun _ _ heq => heq ▸ hg'
  obtain ⟨paid, shipped⟩ := completed
  cases shipped <;> cases paid
  · exact hrelease
  · exact ⟨trivial, fun _ _ => hrelease⟩
  · exact ⟨trivial, fun _ _ => hrelease⟩
  · exact ⟨trivial, fun _ _ => ⟨trivial, fun _ _ => hrelease⟩⟩

/-! ### `run` -/

theorem abort_job (h : g.Active order.id) (rs : List Reservation) (completed : Completed)
    (reason : String) (detail : EventDetail) :
    JobOutline job (fun _ _ => True) (abort id order rs completed reason detail) g := by
  unfold abort fail
  refine Outline.bind (compensate_job h rs completed) fun _ g₁ hg₁ => ?_
  refine Outline.bind (transition_job (hg₁.active rfl) _ _ _) fun _ g₂ _ => ?_
  exact Outline.mono mustGet_job fun _ _ _ => trivial

theorem reserveLines_job (lines : List OrderLine) :
    ∀ rs, JobOutline job (fun _ g' => g' = g) (reserveLines lines rs) g := by
  induction lines with
  | nil => exact fun rs => rfl
  | cons line lines ih =>
    refine fun rs => ⟨trivial, fun r _ => ?_⟩
    cases r with
    | rejected _ _ => rfl
    | accepted id _ => exact ih _

theorem confirm_job (h : g.Active order.id) (rs : List Reservation) :
    JobOutline job (fun _ _ => True) (confirm id order rs) g := by
  unfold confirm
  refine Outline.bind (commitAll_job rs) ?_
  rintro _ _ rfl
  refine Outline.bind (transition_job h _ _ _) fun _ _ _ => ?_
  exact Outline.mono mustGet_job fun _ _ _ => trivial

theorem ship_job (h : g.Active order.id) (rs : List Reservation) :
    JobOutline job (fun _ _ => True) (ship id order rs) g := by
  refine ⟨trivial, fun r _ => ?_⟩
  cases r with
  | failed reason => exact abort_job h rs _ _ _
  | ok shipmentId =>
    show JobOutline job _ (transition order.id .SHIPPING_SCHEDULED .shippingScheduled _ >>= fun _ =>
      confirm id order rs) g
    refine Outline.bind (transition_job h _ _ _) fun _ g' hg' => ?_
    exact confirm_job (hg'.active rfl) rs

theorem pay_job (h : g.Active order.id) (rs : List Reservation) :
    JobOutline job (fun _ _ => True) (pay id order rs) g := by
  refine ⟨trivial, fun r _ => ?_⟩
  cases r with
  | failed reason => exact abort_job h rs _ _ _
  | ok paymentId =>
    show JobOutline job _ (transition order.id .PAYMENT_CHARGED .paymentCharged _ >>= fun _ =>
      ship id order rs) g
    refine Outline.bind (transition_job h _ _ _) fun _ g' hg' => ?_
    exact ship_job (hg'.active rfl) rs

theorem run_job (hjob : job.isRun = true) (hg : g id = none) :
    JobOutline job (fun _ _ => True) (SagaOrchestrator.run id) g := by
  unfold SagaOrchestrator.run
  refine ⟨trivial, fun r hr => ?_⟩
  cases r with
  | none => trivial
  | some order =>
    obtain ⟨rfl, hstatus⟩ := hr
    have hactive : (g.look order).Active order.id := by
      refine ⟨order.sight, ?_, hstatus hjob hg⟩
      rw [Sights.look_of_unwritten (by rw [hg]; rfl), Function.update_self]
    show JobOutline job _ (reserveLines order.lines [] >>= fun _ => _) (g.look order)
    refine Outline.bind (reserveLines_job order.lines []) ?_
    rintro (⟨line, rs⟩ | rs) _ rfl
    · exact abort_job hactive rs _ _ _
    · refine Outline.bind (transition_job hactive _ _ _) fun _ g' hg' => ?_
      exact pay_job (hg'.active rfl) rs

/-! ### `recoverStuck` and the sweep -/

/-- A recovery writes the order of its snapshot only if the snapshot is not terminal, and knows no more
of other orders than before. -/
theorem recoverStuck_job (hg : g order.id = some order.sight) :
    JobOutline job (fun _ g' => ∀ x, x ≠ order.id → g' x = g x) (recoverStuck order) g := by
  unfold recoverStuck
  refine ⟨⟨_, hg, Or.inr rfl⟩, fun entry hid => ?_⟩
  have hid : entry.id = order.id := hid
  have hlook : g.look entry = Function.update g order.id (some entry.sight) := by
    rw [Sights.look_of_unwritten (by rw [hid, hg]; rfl), hid]
  have hne : ∀ x, x ≠ order.id → g.look entry x = g x := fun x hx => by
    rw [hlook, Function.update_of_ne hx]
  show JobOutline job _ (if isTerminalStatus entry.status = true then _ else _) (g.look entry)
  cases hterm : isTerminalStatus entry.status with
  | true =>
    rw [if_pos rfl]
    exact hne
  | false =>
    rw [if_neg (by decide)]
    have hactive : (g.look entry).Active order.id := ⟨_, by rw [hlook, Function.update_self], hterm⟩
    refine Outline.bind (compensate_job hactive _ _) fun _ g₁ hg₁ => ?_
    obtain ⟨v, hv, hwrote⟩ := hg₁.wrote
    refine ⟨⟨v, hv, Or.inl hwrote⟩, fun later hlater => ?_⟩
    have hsame : g₁.look later = g₁ :=
      Sights.look_of_wrote ((show later.id = order.id from hlater) ▸ hv) hwrote
    show JobOutline job _ (fail order.id _ _ >>= fun _ => mustGet order.id) (g₁.look later)
    rw [hsame]
    refine Outline.bind (transition_job (hg₁.active rfl) _ _ _) fun _ g₂ hg₂ => ?_
    refine Outline.mono mustGet_job fun _ g₃ hg₃ x hx => ?_
    rw [hg₃ x hx, hg₂.of_ne hx, hg₁.of_ne hx, hne x hx]

theorem recoverEach_job {os : List Order} (hnodup : (os.map Order.id).Nodup)
    (hg : ∀ order ∈ os, g order.id = some order.sight) :
    JobOutline job (fun _ _ => True) (recoverEach os) g := by
  refine Outline.mono (Outline.forIn (C := jobContract job) (f := recoverStuck)
    (J := fun _ todo g => (todo.map Order.id).Nodup ∧ ∀ order ∈ todo, g order.id = some order.sight)
    ?_ os [] g ⟨hnodup, hg⟩) fun _ _ _ => trivial
  rintro done order rest g ⟨hnodup, hg⟩
  rw [List.map_cons, List.nodup_cons] at hnodup
  refine Outline.mono (recoverStuck_job (hg order List.mem_cons_self)) fun _ g' hg' => ?_
  refine ⟨hnodup.2, fun order' hmem => ?_⟩
  have hne : order'.id ≠ order.id := fun heq => hnodup.1 (heq ▸ List.mem_map_of_mem hmem)
  rw [hg' _ hne]
  exact hg order' (List.mem_cons_of_mem _ hmem)

theorem saga_job (job : Job) : JobOutline job (fun _ _ => True) job.saga fun _ => none := by
  cases job with
  | run id => exact Outline.bind (run_job rfl rfl) fun _ _ _ => trivial
  | recover id =>
    refine ⟨trivial, fun r _ => ?_⟩
    cases r with
    | none => trivial
    | some order =>
      show JobOutline (.recover id) _ (recoverStuck order >>= fun _ => Prog.ret ())
        (Sights.look (fun _ => none) order)
      refine Outline.bind (recoverStuck_job ?_) fun _ _ _ => trivial
      rw [Sights.look_of_unwritten rfl, Function.update_self]
  | sweep =>
    refine ⟨trivial, fun os hnodup => ?_⟩
    have hlooked := Sights.foldl_look_of_mem os (fun _ => none) hnodup fun _ _ => rfl
    have hsweep : JobOutline .sweep (fun _ _ => True) (recoverEach os >>= fun _ => pure os.length)
        (os.foldl Sights.look fun _ => none) :=
      Outline.bind (recoverEach_job hnodup hlooked) fun _ _ _ => trivial
    exact Outline.bind hsweep fun _ _ _ => trivial

end Outlines

/-! ## Sights of stored records -/

section Store

variable {ι : Type} [DecidableEq ι] {js : ι → Job} {w w' : World} {gs : ι → Sights} {i : ι}

omit [DecidableEq ι] in
theorem Sight.of_self (order : Order) : order.sight.Of order := ⟨le_refl _, fun _ => rfl⟩

omit [DecidableEq ι] in
theorem SightsInv.store (h : SightsInv w gs) (hs : w'.store = w.store) : SightsInv w' gs := by
  intro i id v hv
  rw [hs]
  exact h i id v hv

/-- An execution learns only what is stored. -/
theorem SightsInv.learn (h : SightsInv w gs) {g : Sights}
    (hg : ∀ x v, g x = some v →
      gs i x = some v ∨ ∃ order, w.store.get x = some order ∧ v = order.sight) :
    SightsInv w (Function.update gs i g) := by
  intro k x v hv
  by_cases hk : k = i
  · subst hk
    rw [Function.update_self] at hv
    rcases hg x v hv with hv | ⟨order, hget, rfl⟩
    · exact h k x v hv
    · exact ⟨order, hget, Sight.of_self order⟩
  · rw [Function.update_of_ne hk] at hv
    exact h k x v hv

/-- A stored transition makes the sights of others sights of the past. -/
theorem SightsInv.write (h : SightsInv w gs) {id : OrderId} {status : OrderStatus} {e : OrderEvent}
    {store' : OrderStore} (hst : w.store.updateStatus id status e = some store') (hw : w'.store = store')
    {v : Sight} (hv : gs i id = some v) :
    SightsInv w' (Function.update gs i
      (Function.update (gs i) id (some ⟨status, v.events + 1, true⟩))) := by
  obtain ⟨order, hget, hle, -⟩ := h i id v hv
  obtain ⟨store₁, hst₁, -, hget'⟩ := OrderStore.updateStatus_of_get hget status e
  obtain rfl : store₁ = store' := Option.some.inj (hst₁.symm.trans hst)
  intro k x u hu
  rw [hw, hget']
  by_cases hx : x = id
  · subst hx
    refine ⟨_, if_pos rfl, ?_⟩
    by_cases hk : k = i
    · subst hk
      rw [Function.update_self, Function.update_self] at hu
      obtain rfl := Option.some.inj hu
      exact ⟨by simpa using hle, fun _ => rfl⟩
    · rw [Function.update_of_ne hk] at hu
      obtain ⟨order', hget₁, hle', -⟩ := h k x u hu
      obtain rfl := Option.some.inj (hget.symm.trans hget₁)
      simp only [Sight.Of, List.length_append, List.length_singleton]
      exact ⟨by omega, fun heq => by omega⟩
  · rw [if_neg hx]
    refine h k x u ?_
    by_cases hk : k = i
    · subst hk
      rwa [Function.update_self, Function.update_of_ne hx] at hu
    · rwa [Function.update_of_ne hk] at hu

omit [DecidableEq ι] in
/-- Only the store's own calls change it. -/
theorem participate_store {c : Call} (hcreate : ∀ a b x y, c ≠ .create a b x y)
    (hupdate : ∀ id status type detail, c ≠ .updateStatus id status type detail) :
    (participate c w).1.store = w.store := by
  cases c with
  | create a b x y => exact absurd rfl (hcreate a b x y)
  | updateStatus id status type detail => exact absurd rfl (hupdate id status type detail)
  | reserve warehouseId sku qty => simp only [participate]; split <;> rfl
  | release warehouseId sku id => simp only [participate]; split <;> rfl
  | commit warehouseId sku id => simp only [participate]; split <;> rfl
  | _ => rfl

omit [DecidableEq ι] in
/-- A call that rejects leaves the store alone. -/
theorem participate_store_of_error {c : Call} {e : SagaError} (hcreate : ∀ a b x y, c ≠ .create a b x y)
    (hcall : participate c w = (w', .error e)) : w'.store = w.store := by
  by_cases hupdate : ∃ id status type detail, c = .updateStatus id status type detail
  · obtain ⟨id, status, type, detail, rfl⟩ := hupdate
    cases hst : w.store.updateStatus id status ⟨type, w.clock, detail⟩ with
    | none =>
      simp only [participate, hst] at hcall
      rw [← (Prod.mk.inj hcall).1]
    | some store' =>
      simp only [participate, hst] at hcall
      cases (Prod.mk.inj hcall).2
  · have hstore := participate_store (w := w) hcreate fun id status type detail heq =>
      hupdate ⟨id, status, type, detail, heq⟩
    rwa [hcall] at hstore

/-- A call of which no sight depends keeps the sights. -/
theorem SightsInv.silent (h : SightsInv w gs) {c : Call} {r : c.Reply}
    (hcall : participate c w = (w', .ok r)) (hcreate : ∀ a b x y, c ≠ .create a b x y)
    (hupdate : ∀ id status type detail, c ≠ .updateStatus id status type detail)
    (hnote : (gs i).note c r = gs i) : SightsInv w' (Function.update gs i ((gs i).note c r)) := by
  have hstore := participate_store (w := w) hcreate hupdate
  rw [hcall] at hstore
  rw [hnote, Function.update_eq_self]
  exact h.store hstore

/-- A call that resolves is answered as the contract assumes and keeps the sights. -/
theorem SightsInv.ok (h : SightsInv w gs) {c : Call} (hp : (jobContract (js i)).pre (gs i) c)
    (hg : UpToDate (js i) (gs i) c w) {r : c.Reply} (hcall : participate c w = (w', .ok r)) :
    (jobContract (js i)).ans (gs i) c r ∧
      SightsInv w' (Function.update gs i ((gs i).note c r)) := by
  cases c with
  | create _ _ _ _ => exact hp.elim
  | get id =>
    obtain ⟨rfl, hr⟩ := Prod.mk.inj hcall
    obtain rfl := Except.ok.inj hr
    cases hget : w.store.get id with
    | none =>
      refine ⟨trivial, ?_⟩
      show SightsInv w (Function.update gs i (gs i))
      rwa [Function.update_eq_self]
    | some order =>
      refine ⟨⟨OrderStore.id_of_get hget, fun hjob hnone => ?_⟩, h.learn fun x v hv => ?_⟩
      · have hterm := hg hjob hnone
        rwa [hget] at hterm
      · rcases Sights.look_cases hv with hv | ⟨rfl, rfl⟩
        · exact Or.inl hv
        · exact Or.inr ⟨order, by rw [OrderStore.id_of_get hget]; exact hget, rfl⟩
  | nonTerminal =>
    obtain ⟨rfl, hr⟩ := Prod.mk.inj hcall
    obtain rfl := Except.ok.inj hr
    refine ⟨w.store.nodup_nonTerminal, h.learn fun x v hv => ?_⟩
    rcases Sights.foldl_look_cases _ _ hv with hv | ⟨order, hmem, rfl, rfl⟩
    · exact Or.inl hv
    · exact Or.inr ⟨order, (OrderStore.mem_nonTerminal.mp hmem).1, rfl⟩
  | fields order =>
    obtain ⟨rfl, hr⟩ := Prod.mk.inj hcall
    obtain rfl := Except.ok.inj hr
    have hid : (w.store.fields order).id = order.id := by
      rcases w.store.fields_cases order with hf | hf
      · rw [hf]
      · exact OrderStore.id_of_get hf
    refine ⟨hid, h.learn fun x v hv => ?_⟩
    rcases w.store.fields_cases order with hf | hf
    · -- a copy shows what it showed when it was read
      obtain ⟨u, hu, hknown⟩ := hp
      refine Or.inl ?_
      show gs i x = some v
      rw [hf] at hv
      rcases hknown with hwrote | rfl
      · rwa [show (gs i).note (.fields order) order = gs i from Sights.look_of_wrote hu hwrote] at hv
      · rcases Sights.look_cases hv with hv | ⟨rfl, rfl⟩
        · exact hv
        · exact hu
    · rcases Sights.look_cases hv with hv | ⟨rfl, rfl⟩
      · exact Or.inl hv
      · exact Or.inr ⟨_, by rw [hid]; exact hf, rfl⟩
  | updateStatus id status type detail =>
    refine ⟨trivial, ?_⟩
    obtain ⟨v, hv, -⟩ := hp
    cases hst : w.store.updateStatus id status ⟨type, w.clock, detail⟩ with
    | none =>
      simp only [participate, hst] at hcall
      cases (Prod.mk.inj hcall).2
    | some store' =>
      simp only [participate, hst] at hcall
      obtain ⟨rfl, -⟩ := Prod.mk.inj hcall
      have hnote : (gs i).note (.updateStatus id status type detail) r =
          Function.update (gs i) id (some ⟨status, v.events + 1, true⟩) := by
        simp only [Sights.note, hv, Option.map_some, Option.getD_some]
      rw [hnote]
      exact h.write hst rfl hv
  | reserve _ _ _ =>
    refine ⟨trivial, h.silent hcall ?_ ?_ rfl⟩ <;> simp
  | publish _ _ _ => refine ⟨trivial, h.silent hcall ?_ ?_ rfl⟩ <;> simp
  | release _ _ _ => refine ⟨trivial, h.silent hcall ?_ ?_ rfl⟩ <;> simp
  | commit _ _ _ => refine ⟨trivial, h.silent hcall ?_ ?_ rfl⟩ <;> simp
  | charge _ _ => refine ⟨trivial, h.silent hcall ?_ ?_ rfl⟩ <;> simp
  | refund _ => refine ⟨trivial, h.silent hcall ?_ ?_ rfl⟩ <;> simp
  | schedule _ _ => refine ⟨trivial, h.silent hcall ?_ ?_ rfl⟩ <;> simp
  | cancel _ => refine ⟨trivial, h.silent hcall ?_ ?_ rfl⟩ <;> simp

omit [DecidableEq ι] in
/-- A terminal record is not written by an execution that is up to date. -/
theorem SightsInv.terminal_kept (h : SightsInv w gs) {c : Call}
    (hp : (jobContract (js i)).pre (gs i) c) (hg : UpToDate (js i) (gs i) c w) {id : OrderId}
    {order : Order} (hget : w.store.get id = some order) (hterm : isTerminalStatus order.status = true) :
    (participate c w).1.store.get id = some order := by
  by_cases hupdate : ∃ x status type detail, c = .updateStatus x status type detail
  · obtain ⟨x, status, type, detail, rfl⟩ := hupdate
    obtain ⟨v, hv, hactive⟩ := hp
    obtain ⟨order', hget', -, hstatus⟩ := h i x v hv
    have hx : id ≠ x := by
      rintro rfl
      obtain rfl := Option.some.inj (hget.symm.trans hget')
      have hevents : v.events = order.history.length := by
        have hg : (gs i id).map Sight.events = (w.store.get id).map _ := hg
        rw [hv, hget] at hg
        exact Option.some.inj hg
      rw [hstatus hevents, hterm] at hactive
      cases hactive
    obtain ⟨store', hst, -, hstore⟩ :=
      OrderStore.updateStatus_of_get hget' status ⟨type, w.clock, detail⟩
    simp only [participate, hst, hstore, if_neg hx]
    exact hget
  · rw [participate_store ?_ fun x status type detail heq => hupdate ⟨x, status, type, detail, heq⟩]
    · exact hget
    · rintro a b x y rfl
      exact hp

/-- Executions that are up to date when they write keep terminal records. -/
theorem jobs_sound (js : ι → Job) (kept : OrderId → Order → Prop) :
    Sound (upToDateJobs js) (fun i => jobContract (js i)) (Keeps kept) where
  ok {w gs i c w' r} h hp hg hc := by
    obtain ⟨hans, hsights⟩ := h.sights.ok hp hg hc
    refine ⟨hans, hsights, fun {id order} hkept => ?_⟩
    obtain ⟨hterm, hget⟩ := h.kept hkept
    have hstore := h.sights.terminal_kept hp hg hget hterm
    rw [show participate c w = (w', .ok r) from hc] at hstore
    exact ⟨hterm, hstore⟩
  error {w gs i c w' e} h hp hg hc := by
    have hstore : w'.store = w.store := by
      refine participate_store_of_error ?_ hc
      rintro a b x y rfl
      exact hp
    refine ⟨trivial, h.sights.store hstore, fun {id order} hkept => ?_⟩
    rw [hstore]
    exact h.kept hkept
  env {w w' gs} h he := by
    refine ⟨h.sights.store he, fun {id order} hkept => ?_⟩
    obtain ⟨hterm, hget⟩ := h.kept hkept
    exact ⟨hterm, by rw [show w'.store = w.store from he]; exact hget⟩

/-! ### Executions together -/

variable {id : OrderId} {order : Order}

/-- The jobs, before any has begun. -/
abbrev jobsStart (js : ι → Job) (w : World) : Pool participants ι SagaError World Sights Unit :=
  ⟨w, fun _ _ => none, fun i => (js i).saga⟩

/-- Any mix of runs, recoveries and sweeps: if no run starts on a terminal order and each execution
writes only what no other has written since it was seen, then a terminal record stays as it is. -/
theorem terminal_absorbing (js : ι → Job) (w : World)
    {P P' : Pool participants ι SagaError World Sights Unit}
    (hr : (upToDateJobs js).Reaches (jobsStart js w) P) (hr' : (upToDateJobs js).Reaches P P')
    (hget : P.state.store.get id = some order) (hterm : isTerminalStatus order.status = true) :
    P'.state.store.get id = some order := by
  have hstart : Keeps (fun _ _ => False) w fun _ : ι => (fun _ => none : Sights) :=
    ⟨fun _ _ _ hv => (Option.some_ne_none _ hv.symm).elim, fun hkept => hkept.elim⟩
  obtain ⟨hI, ho⟩ := (jobs_sound js _).reaches hr hstart fun i => saga_job (js i)
  have hkeeps : Keeps (fun x o => x = id ∧ o = order) P.state P.aux := by
    refine ⟨hI.sights, ?_⟩
    rintro _ _ ⟨rfl, rfl⟩
    exact ⟨hterm, hget⟩
  exact (((jobs_sound js _).reaches hr' hkeeps ho).1.kept ⟨rfl, rfl⟩).2

/-- A run, a recovery of its order, and a sweep. -/
def replicas : Fin 3 → Job
  | 0 => .run "order"
  | 1 => .recover "order"
  | 2 => .sweep

/-- The run crashes after it has charged. -/
def crashAndRecovery : List (Fin 3) := List.replicate 5 0 ++ List.replicate 8 1

/-- The recovery cancels the order of the crashed run, and the sweep leaves it cancelled. -/
theorem recovered_stays :
    let P := (upToDateJobs replicas).schedule (jobsStart replicas soloWorld) crashAndRecovery
    let P' := (upToDateJobs replicas).schedule P [2]
    storedStatus P.state "order" = some .CANCELLED ∧
      P'.state.store.get "order" = P.state.store.get "order" := by
  intro P P'
  have hadmits : (upToDateJobs replicas).AdmitsAll (jobsStart replicas soloWorld) crashAndRecovery := by
    decide +kernel
  have hadmits' : (upToDateJobs replicas).AdmitsAll P [2] := by decide +kernel
  have hcancelled : storedStatus P.state "order" = some .CANCELLED := by decide +kernel
  refine ⟨hcancelled, ?_⟩
  obtain ⟨order, hget, hstatus⟩ := Option.map_eq_some_iff.mp hcancelled
  rw [hget]
  exact terminal_absorbing replicas soloWorld (reaches_admitted _ _ hadmits)
    (reaches_admitted _ _ hadmits') hget (by rw [hstatus]; rfl)

/-- One event, delivered twice. -/
def deliveries : Fin 2 → Job := fun _ => .run "order"

/-- The second delivery moves an order that the first has confirmed. -/
theorem redelivery_moves_terminal : ¬ ∀ (js : Fin 2 → Job) (w : World)
    (P P' : Pool participants (Fin 2) SagaError World Sights Unit) (id : OrderId) (order : Order),
    (jobs (Fin 2)).Reaches (jobsStart js w) P → (jobs (Fin 2)).Reaches P P' →
    P.state.store.get id = some order → isTerminalStatus order.status = true →
    ∃ order', P'.state.store.get id = some order' ∧ order'.status = order.status ∧
      order'.history = order.history := by
  intro hall
  let P := (jobs (Fin 2)).schedule (jobsStart deliveries soloWorld) (List.replicate 14 0)
  let P' := (jobs (Fin 2)).schedule P (List.replicate 3 1)
  have hconfirmed : storedStatus P.state "order" = some .CONFIRMED := by decide +kernel
  have hmoved : storedStatus P'.state "order" = some .INVENTORY_RESERVED := by decide +kernel
  obtain ⟨order, hget, hstatus⟩ := Option.map_eq_some_iff.mp hconfirmed
  obtain ⟨order', hget', hstatus', -⟩ := hall deliveries soloWorld P P' "order" order
    (reaches_schedule (fun _ _ _ _ => trivial) _ _) (reaches_schedule (fun _ _ _ _ => trivial) _ _)
    hget (by rw [hstatus]; rfl)
  rw [storedStatus, hget', Option.map_some, hstatus', hstatus] at hmoved
  cases hmoved

end Store

end SupplyChain
