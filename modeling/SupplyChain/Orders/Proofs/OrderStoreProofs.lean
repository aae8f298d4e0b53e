import SupplyChain.Orders.OrderStore
import SupplyChain.Orders.Participants

/-!
# Proofs: what the order store and the two providers hold after a call
-/

namespace SupplyChain

open Collections

namespace OrderStore

variable {store : OrderStore} {id x : OrderId} {o : Order}

theorem get_put : (store.put o).get x = if x = o.id then some o else store.get x :=
  InsertionMap.get_set _ _ _ _

theorem id_of_get (h : store.get id = some o) : o.id = id := store.keyed h

/-- A transition of a stored order changes its status, appends to its history and leaves everything
else alone. -/
theorem updateStatus_of_get (h : store.get id = some o) (status : OrderStatus) (event : OrderEvent) :
    ∃ store', store.updateStatus id status event = some store' ∧ store'.driver = store.driver ∧
      ∀ x, store'.get x =
        if x = id then some { o with status, history := o.history ++ [event] } else store.get x := by
  refine ⟨store.put { o with status, history := o.history ++ [event] }, ?_, rfl, fun x => ?_⟩
  · rw [updateStatus, h]
    rfl
  · rw [get_put]
    simp only [id_of_get h]

/-- The sweep lists exactly the stored records whose status is not terminal. -/
theorem mem_nonTerminal :
    o ∈ store.nonTerminal ↔ store.get o.id = some o ∧ isTerminalStatus o.status = false := by
  rw [nonTerminal, (store.driver.listing_perm _).mem_iff, List.mem_filter, InsertionMap.mem_values_iff]
  simp only [Bool.not_eq_true']
  constructor
  · rintro ⟨⟨id, hid⟩, hstatus⟩
    exact ⟨by rw [store.keyed hid]; exact hid, hstatus⟩
  · rintro ⟨hget, hstatus⟩
    exact ⟨⟨o.id, hget⟩, hstatus⟩

theorem nodup_nonTerminal (store : OrderStore) : (store.nonTerminal.map Order.id).Nodup := by
  have hperm := (store.driver.listing_perm
    (store.orders.values.filter fun o => !isTerminalStatus o.status)).map Order.id
  rw [nonTerminal, hperm.nodup_iff]
  exact (InsertionMap.nodup_values store.keyed).sublist (List.filter_sublist.map Order.id)

theorem fields_of_get (h : store.get o.id = some o) : store.fields o = o := by
  unfold fields
  split
  · rw [h]
    rfl
  · rfl

/-- The fields of a record read as they were read first or as they are stored now. -/
theorem fields_cases (store : OrderStore) (o : Order) :
    store.fields o = o ∨ store.get o.id = some (store.fields o) := by
  unfold fields
  split
  · cases h : store.get o.id with
    | none => exact Or.inl rfl
    | some o' => exact Or.inr rfl
  · exact Or.inl rfl

end OrderStore

/-! ## The providers -/

/-- A refund gives the charge back, if there is one. -/
theorem PaymentGateway.refund_charges (g : PaymentGateway) (id : OrderId) :
    (g.refund id).1.charges = fun o => if o = id then none else g.charges o := by
  unfold refund
  cases h : g.charges id with
  | none =>
    funext o
    by_cases ho : o = id <;> simp [ho, h]
  | some p => simp

theorem PaymentGateway.refund_fail (g : PaymentGateway) (id : OrderId) :
    (g.refund id).1.failPaymentForOrderIds = g.failPaymentForOrderIds := by
  unfold refund
  split <;> rfl

theorem PaymentGateway.charge_cases (g : PaymentGateway) (id : OrderId) (amount : Int) :
    (g.failPaymentForOrderIds id = true ∧ ∃ reason, g.charge id amount = (g, .failed reason)) ∨
    ∃ g' paymentId, g.failPaymentForOrderIds id = false ∧ g.charge id amount = (g', .ok paymentId) ∧
      g'.charges = (fun o => if o = id then some paymentId else g.charges o) ∧
      g'.failPaymentForOrderIds = g.failPaymentForOrderIds := by
  unfold charge
  cases h : g.failPaymentForOrderIds id with
  | true => exact Or.inl ⟨rfl, _, rfl⟩
  | false => exact Or.inr ⟨_, _, rfl, rfl, rfl, rfl⟩

theorem ShippingProvider.schedule_cases (p : ShippingProvider) (id : OrderId) (w : WarehouseId) :
    (p.failShippingForOrderIds id = true ∧ ∃ reason, p.schedule id w = (p, .failed reason)) ∨
    ∃ p' shipmentId, p.failShippingForOrderIds id = false ∧ p.schedule id w = (p', .ok shipmentId) ∧
      p'.shipments = (fun o => if o = id then some shipmentId else p.shipments o) ∧
      p'.failShippingForOrderIds = p.failShippingForOrderIds := by
  unfold schedule
  cases h : p.failShippingForOrderIds id with
  | true => exact Or.inl ⟨rfl, _, rfl⟩
  | false => exact Or.inr ⟨_, _, rfl, rfl, rfl, rfl⟩

end SupplyChain
