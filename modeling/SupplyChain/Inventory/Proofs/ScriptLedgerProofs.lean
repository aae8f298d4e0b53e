import SupplyChain.Inventory.Proofs.LedgerProofs
import SupplyChain.Inventory.Proofs.ScriptServerProofs

/-!
# Proofs: the ledger of the scripts balances

As long as the counters stay below 2^53 and no deadline is refused, a run of the scripts is a run of the exact
model, and has its ledger. Beyond, the counters do go negative.
-/

namespace SupplyChain

open InventoryService Trace

variable {lua : LuaNumbers} {ofInt : Int → lua.Num} {tr : Trace} {k : Keyspace} {r : Redis} {item : String}

/-! ## The units of an item -/

theorem openQty_quiet {e : Event} (he : e.Quiet) : openQty (e :: tr) item = openQty tr item := by
  have hg : grants (e :: tr) = grants tr := by simp [grants, he.grant]
  have hr : released (e :: tr) = released tr := by simp [released_cons, he.released]
  have hc : committed (e :: tr) = committed tr := by simp [committed_cons, he.committed]
  exact total_congr hg fun g _ => by rw [Open, Open, hr, hc]

/-- A reservation is open after an event that does not resolve it. -/
theorem open_cons {e : Event} {g : Grant} :
    Open (e :: tr) g ↔ Open tr g ∧ g.id ∉ e.released.toList ++ e.committed.toList := by
  rw [Open, Open, released_cons, committed_cons]
  simp only [List.mem_append, not_or]
  tauto

/-- A grant opens a reservation of the item it is for. -/
theorem openQty_accept {w : WarehouseId} {s : Sku} {qty ttl remaining : Int}
    {id : ReservationId} (hqty : 0 < qty) :
    openQty (⟨.reserve w s qty ttl id, .reserved (.ok (.accepted id remaining))⟩ :: tr) item ≤
      openQty tr item + if item = itemName w s then qty else 0 := by
  let g : Grant := ⟨⟨w, s, id⟩, qty, clock tr + 1000 * ttl.toNat⟩
  let e : Event := ⟨.reserve w s qty ttl id, .reserved (.ok (.accepted id remaining))⟩
  have hopen : openQty (e :: tr) item =
      openQty tr item + if g.item = item ∧ Open (e :: tr) g then g.qty else 0 :=
    total_accept rfl fun _ _ => Iff.rfl
  rw [hopen]
  by_cases hi : item = itemName w s
  · rw [if_pos hi]
    split
    · exact le_refl _
    · omega
  · rw [if_neg hi, if_neg fun hand => hi hand.1.symm]

/-- An event that resolves a reservation closes it. -/
theorem LedgerInv.openQty_closes (h : LedgerInv tr r) {e : Event} {g : Grant} (hmem : g ∈ grants tr)
    (ho : Open tr g) (hgrant : ∀ now, e.grant now = none)
    (hresolves : e.released.toList ++ e.committed.toList = [g.id]) :
    openQty tr item = openQty (e :: tr) item + if g.item = item then g.qty else 0 := by
  have hgrants : grants (e :: tr) = grants tr := by simp [grants, hgrant]
  have hids : ((grants (e :: tr)).map Grant.id).Nodup := hgrants ▸ h.ids
  exact openQty_resolve hids (hgrants ▸ hmem) ho hgrants fun g' => by rw [open_cons, hresolves, List.mem_singleton]

/-- What the counter of an item and its open reservations come to after an operation. -/
theorem LedgerInv.units_step (h : LedgerInv tr r) {op : Op} (ha : Admissible tr op) (item : String) :
    units (op.run r).1 item + openQty (⟨op, (op.run r).2⟩ :: tr) item ≤
      ((Event.mk op (op.run r).2).sets item).getD (units r item) + openQty tr item := by
  cases op with
  | setStock w s qty =>
    show units (r.set (stockKey w s) qty) item + openQty tr item ≤
      (if itemName w s = item then some qty else none).getD (units r item) + openQty tr item
    rw [units_set]
    by_cases hi : itemName w s = item
    · rw [if_pos hi.symm, if_pos hi]
      exact le_refl _
    · rw [if_neg (Ne.symm hi), if_neg hi]
      exact le_refl _
  | reserve w s qty ttl id =>
    rcases reserve_cases r w s qty ha.1 id with ⟨reason, remaining, hrej, -⟩ | ⟨hqty, -, hok⟩
    · simp only [Op.run, hrej]
      rw [openQty_quiet ⟨fun _ => rfl, fun _ => rfl, rfl, rfl⟩]
      exact le_refl _
    · simp only [Op.run, hok]
      let e : Event := ⟨.reserve w s qty ttl id, .reserved (.ok (.accepted id (units r (itemName w s) - qty)))⟩
      have hopen : openQty (e :: tr) item ≤ openQty tr item + if item = itemName w s then qty else 0 :=
        openQty_accept hqty
      show _ + openQty (e :: tr) item ≤ units r item + openQty tr item
      rw [units_setEx, units_incrBy]
      by_cases hi : item = itemName w s
      · rw [if_pos hi] at hopen ⊢
        omega
      · rw [if_neg hi] at hopen ⊢
        omega
  | release w s id =>
    rcases h.resolves ha.2 with hnone | ⟨g, hmem, hg, ho, hheld⟩
    · simp only [Op.run, release_of_none hnone]
      rw [openQty_quiet ⟨fun _ => rfl, fun _ => rfl, rfl, rfl⟩]
      exact le_refl _
    · simp only [Op.run, release_of_some hheld]
      have hid : g.id = id := by rw [Grant.id, hg]
      have hitem : g.item = itemName w s := by rw [Grant.item, hg]
      let e : Event := ⟨.release w s id, .resolved (.ok .RELEASED)⟩
      have hclosed : openQty tr item = openQty (e :: tr) item + if g.item = item then g.qty else 0 :=
        h.openQty_closes hmem ho (fun _ => rfl) (congrArg (fun id => [id]) hid.symm)
      show _ + openQty (e :: tr) item ≤ units r item + openQty tr item
      rw [units_incrBy, units_del, hclosed, hitem]
      by_cases hi : itemName w s = item
      · rw [if_pos hi, if_pos hi.symm]
        omega
      · rw [if_neg hi, if_neg (Ne.symm hi)]
        omega
  | commit w s id =>
    rcases h.resolves ha.2 with hnone | ⟨g, hmem, hg, ho, hheld⟩
    · simp only [Op.run, commit_of_none hnone]
      rw [openQty_quiet ⟨fun _ => rfl, fun _ => rfl, rfl, rfl⟩]
      exact le_refl _
    · simp only [Op.run, commit_of_some hheld]
      have hid : g.id = id := by rw [Grant.id, hg]
      let e : Event := ⟨.commit w s id, .resolved (.ok .COMMITTED)⟩
      have hclosed : openQty tr item = openQty (e :: tr) item + if g.item = item then g.qty else 0 :=
        h.openQty_closes hmem ho (fun _ => rfl) (congrArg (fun id => [id]) hid.symm)
      have hqty := h.pos g hmem
      show _ + openQty (e :: tr) item ≤ units r item + openQty tr item
      rw [units_del, hclosed]
      split <;> omega
  | elapse ms =>
    have hunits : units (r.elapse ms) item = units r item :=
      h.units_of_entries (show (r.elapse ms).entries = r.entries from rfl) item
    have hopen : openQty (⟨.elapse ms, .done⟩ :: tr) item = openQty tr item :=
      openQty_quiet ⟨fun _ => rfl, fun _ => rfl, rfl, rfl⟩
    show units (r.elapse ms) item + openQty (⟨.elapse ms, .done⟩ :: tr) item ≤ units r item + openQty tr item
    rw [hunits, hopen]

/-! ## Runs of the scripts -/

/-- The stored numbers are no larger than the units of an item. -/
theorem Run.ranged_of_units (h : Run tr r) (hunits : ∀ item, units r item + openQty tr item < 2 ^ 53) :
    r.Ranged := by
  intro key v hv
  have hinv := h.inv
  have hpresent : r.entries key ≠ none := by
    intro hnone
    rw [Redis.lookup, hnone] at hv
    cases hv
  rcases h.keys key hpresent with ⟨item, rfl⟩ | ⟨id, rfl⟩
  · have hlevel : units r item = v := by
      rw [units, hv]
      rfl
    have hlow := hinv.nonneg item
    have hopen : 0 ≤ openQty tr item := total_nonneg hinv.pos
    have hbound := hunits item
    omega
  · obtain ⟨g, hg, -, ho, rfl, -⟩ := hinv.grant_of_held hv
    have hpos := hinv.pos g hg
    have hopen : g.qty ≤ openQty tr g.item := le_total hinv.pos hg ho
    have hlow := hinv.nonneg g.item
    have hbound := hunits g.item
    omega

/-- A run of the scripts whose numbers are in range is a run of the exact model. -/
theorem ScriptRun.exact (hexact : lua.Exact ofInt) (h : ScriptRun lua Counted tr k) :
    ∃ r, Run tr r ∧ k = .ofRedis r ∧ ∀ item, units r item + openQty tr item < 2 ^ 53 := by
  induction h with
  | start => exact ⟨Redis.empty, .start, rfl, fun _ => show (0 : Int) + 0 < 2 ^ 53 by decide⟩
  | @step tr k h op ha ih =>
    obtain ⟨r, hrun, rfl, hunits⟩ := ih
    obtain ⟨hproper, hwithin⟩ := ha
    have hinv := hrun.inv
    have hlasting : op.Lasting := by
      cases op with
      | reserve w s qty ttl id => exact hwithin.2.1
      | setStock _ _ _ | release _ _ _ | commit _ _ _ | elapse _ => trivial
    have htimely : op.Timely r.now := by
      rw [hinv.now]
      cases op with
      | reserve w s qty ttl id => exact hwithin
      | setStock _ _ _ | release _ _ _ | commit _ _ _ | elapse _ => trivial
    have hscripts := scripts_run hexact (hrun.ranged_of_units hunits) htimely
    rw [hscripts]
    refine ⟨(op.run r).1, .step hrun op ⟨hlasting, hproper⟩, rfl, fun item => ?_⟩
    have hstep := hinv.units_step ⟨hlasting, hproper⟩ item
    have hbound := hunits item
    refine lt_of_le_of_lt hstep ?_
    cases op with
    | setStock w s qty =>
      show (if itemName w s = item then some qty else none).getD (units r item) + openQty tr item < 2 ^ 53
      by_cases hi : itemName w s = item
      · rw [if_pos hi, Option.getD_some, ← hi]
        exact hwithin
      · rw [if_neg hi]
        exact hbound
    | reserve _ _ _ _ _ | release _ _ _ | commit _ _ _ | elapse _ => exact hbound

theorem scriptRun_replay {admits : Trace → Op → Prop} {ops : List Op} (h : AllAdmitted lua admits ops) :
    ScriptRun lua admits ((Deployment.scripts lua).replay .empty ops).1
      ((Deployment.scripts lua).replay .empty ops).2 := by
  induction ops with
  | nil => exact .start
  | cons op ops ih => exact .step (ih h.2) op h.1

/-- In every run of the scripts with numbers in range, from any number of callers, no counter is ever negative;
each counter is what it was set to last, less what was accepted and plus what was released since; every reservation
is resolved at most once, and every other attempt is told so; and what is committed or still held of an item whose
counter was set once never exceeds what it was set to. -/
theorem inventory_never_oversells (hexact : lua.Exact ofInt) (h : ScriptRun lua Counted tr k) :
    (∀ w s, 0 ≤ (Deployment.scripts lua).available k w s) ∧
    (∀ w s, (Deployment.scripts lua).available k w s =
      lastSet tr (itemName w s) - acceptedSince tr (itemName w s) + releasedSince tr (itemName w s)) ∧
    (released tr ++ committed tr).Nodup ∧ (∀ e ∈ tr, e.Answered) ∧
    ∀ w s qty, sets tr (itemName w s) = [qty] →
      committedQty tr (itemName w s) + liveQty tr (itemName w s) ≤ qty := by
  obtain ⟨r, hrun, rfl, -⟩ := h.exact hexact
  have hI := hrun.inv
  refine ⟨fun w s => ?_, fun w s => ?_, hI.once, hI.answered, fun w s qty hset => ?_⟩
  · rw [available_ofRedis, getAvailable_eq]
    exact hI.nonneg _
  · rw [available_ofRedis, getAvailable_eq]
    exact hI.level _
  · have hbal := hI.balance _ _ hset
    have hnn := hI.nonneg (itemName w s)
    have hlapsed : 0 ≤ total tr (itemName w s) (Lapsed tr) := total_nonneg hI.pos
    rw [open_split] at hbal
    omega

/-- A run of the scripts on doubles. -/
abbrev onDoubles (ops : List Op) : Trace × Keyspace := (Deployment.scripts .doubles).replay .empty ops

/-- Five units are reserved; three are released, twice, and the other two committed. -/
def sale : List Op :=
  [.commit "warehouse" "sku" "a", .release "warehouse" "sku" "b", .release "warehouse" "sku" "b",
    .elapse 1000, .reserve "warehouse" "sku" 1 900 "c", .reserve "warehouse" "sku" 3 900 "b",
    .reserve "warehouse" "sku" 2 900 "a", .setStock "warehouse" "sku" 5]

/-- The second release finds nothing, and what was sold is no more than there was. -/
theorem sale_never_oversells :
    (Deployment.scripts .doubles).available (onDoubles sale).2 "warehouse" "sku" = 3 ∧
      released (onDoubles sale).1 = ["b"] ∧
      (released (onDoubles sale).1 ++ committed (onDoubles sale).1).Nodup ∧
      committedQty (onDoubles sale).1 (itemName "warehouse" "sku") +
        liveQty (onDoubles sale).1 (itemName "warehouse" "sku") ≤ 5 := by
  have hrun : ScriptRun .doubles Counted (onDoubles sale).1 (onDoubles sale).2 :=
    scriptRun_replay (by decide +kernel)
  obtain ⟨-, -, honce, -, hbound⟩ := inventory_never_oversells doubles_exact hrun
  exact ⟨by decide +kernel, by decide +kernel, honce,
    hbound "warehouse" "sku" 5 (by decide +kernel)⟩

/-- A stock of 2^53 + 4 units, of which one is reserved, and then all. -/
def roundedSale : List Op :=
  [.reserve "warehouse" "sku" 9007199254740996 900 "b", .reserve "warehouse" "sku" 1 900 "a",
    .setStock "warehouse" "sku" 9007199254740996]

/-- Two of five units are reserved, with a time to live that is refused. -/
def refusedSale (ttlSeconds : Int) : List Op :=
  [.reserve "warehouse" "sku" 2 ttlSeconds "a", .setStock "warehouse" "sku" 5]

/-- The script takes 2^53 + 3 for 2^53 + 4, and the counter goes negative. The units of a reservation that is
refused for its time to live were not accepted, and they are gone from the counter. -/
theorem miscounted :
    (∃ tr k, ScriptRun .doubles Proper tr k ∧
      (Deployment.scripts .doubles).available k "warehouse" "sku" = -1) ∧
    ∀ ttlSeconds ∈ [(0 : Int), 10 ^ 16], ∃ tr k, ScriptRun .doubles Proper tr k ∧
      (Deployment.scripts .doubles).available k "warehouse" "sku" = 3 ∧
      lastSet tr (itemName "warehouse" "sku") - acceptedSince tr (itemName "warehouse" "sku") +
        releasedSince tr (itemName "warehouse" "sku") = 5 := by
  refine ⟨⟨_, _, scriptRun_replay (show AllAdmitted .doubles Proper roundedSale by decide +kernel),
    by decide +kernel⟩, fun ttlSeconds httl => ?_⟩
  simp only [List.mem_cons, List.not_mem_nil, or_false] at httl
  rcases httl with rfl | rfl
  · exact ⟨_, _, scriptRun_replay (show AllAdmitted .doubles Proper (refusedSale 0) by decide +kernel),
      by decide +kernel, by decide +kernel⟩
  · exact ⟨_, _, scriptRun_replay (show AllAdmitted .doubles Proper (refusedSale (10 ^ 16)) by decide +kernel),
      by decide +kernel, by decide +kernel⟩

/-- Of an item whose counter was set once, the available, the live and the committed units make up what it was set
to exactly when no reservation of the item has lapsed. -/
theorem inventory_conserved_iff (hexact : lua.Exact ofInt) (h : ScriptRun lua Counted tr k) {w : WarehouseId}
    {s : Sku} {qty : Int} (hset : sets tr (itemName w s) = [qty]) :
    (Deployment.scripts lua).available k w s + liveQty tr (itemName w s) + committedQty tr (itemName w s) = qty ↔
      ∀ g ∈ grants tr, g.item = itemName w s → ¬ Lapsed tr g := by
  obtain ⟨r, hrun, rfl, -⟩ := h.exact hexact
  have hI := hrun.inv
  have hbal := hI.balance _ _ hset
  rw [open_split] at hbal
  rw [← total_eq_zero hI.pos, available_ofRedis, getAvailable_eq]
  constructor
  · intro heq
    omega
  · intro hzero
    omega

/-- While the reservation is live and after it was committed, nothing is lost. -/
theorem sale_conserved : (Deployment.scripts .doubles).available (onDoubles sale).2 "warehouse" "sku" +
    liveQty (onDoubles sale).1 (itemName "warehouse" "sku") +
      committedQty (onDoubles sale).1 (itemName "warehouse" "sku") = 5 :=
  (inventory_conserved_iff doubles_exact (scriptRun_replay (by decide +kernel))
    (by decide +kernel)).mpr (by decide +kernel)

/-- Two of five units are reserved, and nobody resolves the reservation in time. -/
def abandoned : List Op :=
  [.elapse 900000, .reserve "warehouse" "sku" 2 900 "a", .setStock "warehouse" "sku" 5]

/-- When its time to live has passed, its units are neither available nor held. -/
theorem abandoned_is_lost : ¬ ∀ (tr : Trace) (k : Keyspace) (w : WarehouseId) (s : Sku) (qty : Int),
    ScriptRun .doubles Proper tr k → sets tr (itemName w s) = [qty] →
      (Deployment.scripts .doubles).available k w s + liveQty tr (itemName w s) +
        committedQty tr (itemName w s) = qty := by
  intro hall
  have heq := hall (onDoubles abandoned).1 (onDoubles abandoned).2 "warehouse" "sku" 5
    (scriptRun_replay (by decide +kernel)) (by decide +kernel)
  exact absurd heq (by decide +kernel)

end SupplyChain
